/-
Single operations with and without interruptions.

Most operations check their arguments, make one call until it is not
interrupted, and make something of its reply (`agrees_checked`). The
others make calls in a loop: a link is read with more and more room, a
file piece by piece until nothing comes. Each loop is followed in the first
of two alike states, by the recursion of the function itself; every turn
gets the same reply in both, since it repeats its call by itself.
-/
import PosixFiles.Operation.Digest
import PosixFiles.Operation.Directory
import PosixFiles.Operation.Entry
import PosixFiles.Operation.Parameter
import PosixFiles.Proofs.Interruption.Agreement

namespace PosixFiles.System

variable {σ α : Type} {n : Nat} {S : System σ} {holds : Handle → σ → Prop}

-- ============================================== one call that is repeated

/-- One call, and something to be made of its reply. -/
theorem agrees_persist_bind (hS : Calm S holds) (c : Call)
    (hc : c.primitive.isRepeated = true)
    {f : Reply c → Op (Recorded (Scripted σ)) α} {post : α → σ → Prop}
    (hf : ∀ r, errno? r ≠ some .eintr → Agrees anyState (f r) post) :
    Agrees anyState (Op.persist S.faulty.recorded c >>= f) post :=
  (Agrees.persist hS c hc).bind fun r => Agrees.of_condition (hf r)

/-- A check, and then one call with something to be made of its reply. -/
theorem agrees_checked (hS : Calm S holds) {subject : Subject} {arguments : List Bytes}
    (c : Call) (hc : c.primitive.isRepeated = true)
    {f : Reply c → Op (Recorded (Scripted σ)) α} {post : α → σ → Prop}
    (hf : ∀ r, errno? r ≠ some .eintr → Agrees anyState (f r) post) :
    Agrees anyState (Op.requireNoNul subject arguments >>= fun _ =>
      Op.persist S.faulty.recorded c >>= f) post :=
  (Agrees.requireNoNul subject arguments).bind fun _ => agrees_persist_bind hS c hc hf

/-- What is made of a reply by accepting it. -/
theorem agrees_accept {subject : Subject} (r : Except Errno α) (h : errno? r ≠ some .eintr) :
    Agrees anyState (Op.accept subject r : Op (Recorded (Scripted σ)) α) anyValue :=
  (Agrees.accept r).consequence (fun _ _ => ⟨h, fun _ _ => trivial⟩) fun _ _ h => h

/-- A failure with the code of a reply that is no interruption. -/
theorem agrees_fail {subject : Subject} {e : Errno} {post : α → σ → Prop} {β : Type}
    (h : errno? (.error e : Except Errno β) ≠ some .eintr) :
    Agrees anyState
      (Op.fail (.ofErrno subject e) : Op (Recorded (Scripted σ)) α) post :=
  Agrees.fail fun he => h (congrArg some he)

theorem agrees_stat (hS : Calm S holds) (follow : Bool) (p : Path) :
    Agrees anyState (S.faulty.recorded.stat follow p) anyValue :=
  agrees_checked hS _ (by cases follow <;> rfl) agrees_accept

/-- The status as data agrees, and its code is no interruption either. -/
theorem agrees_statOutcome (hS : Calm S holds) (follow : Bool) (p : Path) :
    Agrees anyState (S.faulty.recorded.statOutcome follow p)
      fun v _ => v.errno ≠ .eintr := by
  refine agrees_checked hS _ (by cases follow <;> rfl) fun r hr => ?_
  cases r with
  | ok s => exact Agrees.pure _ fun _ _ => by simp [StatOutcome.errno, Errno.eintr]
  | error e =>
      dsimp only
      by_cases he : e.isUnexpected = true
      · rw [if_pos he]
        exact agrees_fail hr
      · rw [if_neg he]
        refine (Agrees.emit _).bind fun _ => Agrees.pure _ fun _ _ => ?_
        exact fun hc => hr (congrArg some hc)

theorem agrees_link (hS : Calm S holds) (old new : Path) :
    Agrees anyState (S.faulty.recorded.link old new) anyValue :=
  agrees_checked hS _ rfl agrees_accept

theorem agrees_symlink (hS : Calm S holds) (target new : Path) :
    Agrees anyState (S.faulty.recorded.symlink target new) anyValue :=
  agrees_checked hS _ rfl agrees_accept

theorem agrees_rename (hS : Calm S holds) (old new : Path) :
    Agrees anyState (S.faulty.recorded.rename old new) anyValue :=
  agrees_checked hS _ rfl agrees_accept

theorem agrees_chmod (hS : Calm S holds) (p : Path) (mode : UInt32) :
    Agrees anyState (S.faulty.recorded.chmod p mode) anyValue :=
  agrees_checked hS _ rfl agrees_accept

theorem agrees_mkfifo (hS : Calm S holds) (p : Path) (mode : UInt32) :
    Agrees anyState (S.faulty.recorded.mkfifo p mode) anyValue :=
  agrees_checked hS _ rfl agrees_accept

/-- What a deleting call came to. -/
theorem agrees_deleted (p : Path) (absorbed : Errno → Bool) (r : Except Errno Unit)
    (hr : errno? r ≠ some .eintr) :
    Agrees anyState (deleted p absorbed r : Op (Recorded (Scripted σ)) Bool) anyValue := by
  unfold deleted
  cases r with
  | ok u => exact Agrees.pure _ fun _ h => h
  | error e =>
      dsimp only
      by_cases he : absorbed e = true
      · rw [if_pos he]
        exact (Agrees.emit _).bind fun _ => Agrees.pure _ fun _ h => h
      · rw [if_neg he]
        exact agrees_fail hr

theorem agrees_unlink (hS : Calm S holds) (p : Path) :
    Agrees anyState (S.faulty.recorded.unlink p) anyValue :=
  agrees_checked hS _ rfl (agrees_deleted p _)

theorem agrees_remove (hS : Calm S holds) (p : Path) :
    Agrees anyState (S.faulty.recorded.remove p) anyValue :=
  agrees_checked hS _ rfl (agrees_deleted p _)

theorem agrees_mkdir (hS : Calm S holds) (p : Path) (mode : UInt32) :
    Agrees anyState (S.faulty.recorded.mkdir p mode) anyValue := by
  refine agrees_checked hS _ rfl fun r hr => ?_
  cases r with
  | ok u => exact Agrees.pure _ fun _ h => h
  | error e =>
      dsimp only
      by_cases he : e = .eexist
      · rw [if_pos he]
        exact (Agrees.emit _).bind fun _ => Agrees.pure _ fun _ h => h
      · rw [if_neg he]
        exact agrees_fail hr

/-- The mask is set beneath the scripts. -/
theorem agrees_umask (mask : UInt32) :
    Agrees anyState (S.faulty.recorded.umask mask) anyValue := by
  intro n a b hab _
  refine ⟨?_, ⟨?_, hab.script_eq, hab.calls_eq⟩, trivial⟩
  · show Except.ok (S.setMask mask b.state.state).1 = .ok (S.setMask mask a.state.state).1
    rw [hab.state_eq]
  · show (S.setMask mask b.state.state).2 = (S.setMask mask a.state.state).2
    rw [hab.state_eq]

-- ================================================================= times

/-- The present moment is that of the state beneath the scripts. -/
theorem agrees_present : Agrees anyState S.faulty.recorded.present anyValue := by
  intro n a b hab _
  refine ⟨?_, hab, trivial⟩
  show Except.ok (max 0 (S.clock b.state.state).secs)
    = .ok (max 0 (S.clock a.state.state).secs)
  rw [hab.state_eq]

theorem agrees_utimeCoarse (hS : Calm S holds) (p : Path) (now : Bool) (mtime : Int64) :
    Agrees anyState (S.faulty.recorded.utimeCoarse p now mtime) anyValue := by
  refine agrees_persist_bind hS _ rfl fun r hr => ?_
  refine (agrees_accept r hr).bind fun current => ?_
  cases now with
  | true => exact agrees_present.bind fun _ => agrees_persist_bind hS (.utime ..) rfl agrees_accept
  | false =>
      have hmtime : Agrees anyState (pure mtime : Op (Recorded (Scripted σ)) Int64) anyValue :=
        Agrees.pure mtime fun _ h => h
      exact hmtime.bind fun _ => agrees_persist_bind hS (.utime ..) rfl agrees_accept

theorem agrees_utime (hS : Calm S holds) (p : Path) (now : Bool) (mtime : Int64) :
    Agrees anyState (S.faulty.recorded.utime p now mtime) anyValue := by
  refine agrees_checked hS _ rfl fun r hr => ?_
  cases r with
  | ok u => exact Agrees.pure _ fun _ h => h
  | error e =>
      dsimp only
      by_cases he : e = .enosys
      · rw [if_pos he]
        exact (Agrees.emit _).bind fun _ => agrees_utimeCoarse hS p now mtime
      · rw [if_neg he]
        exact agrees_fail hr

-- =========================================================== link targets

/-- Attempts with more and more room agree. -/
theorem readlinkFrom_alike (hS : Calm S holds) (p : Path) (k : Nat) (buffer : Bytes)
    (a : Recorded (Scripted σ)) :
    ∀ b, Alike n a b →
      (S.faulty.recorded.readlinkFrom p k buffer b).1
          = (S.faulty.recorded.readlinkFrom p k buffer a).1
        ∧ Alike n (S.faulty.recorded.readlinkFrom p k buffer a).2
            (S.faulty.recorded.readlinkFrom p k buffer b).2
        ∧ errno? (S.faulty.recorded.readlinkFrom p k buffer a).1 ≠ some .eintr := by
  fun_induction System.readlinkFrom S.faulty.recorded p k buffer a with
  | case1 k buffer a r e hr =>
      intro b hab
      obtain ⟨hreply, hne, halike⟩ := hab.persist_of_eq hS (c := .readlink p (linkRoom k)) rfl hr
      rw [readlinkFrom_eq, hreply]
      exact ⟨rfl, halike, hne⟩
  | case2 k buffer a r target hr hfull =>
      intro b hab
      obtain ⟨hreply, -, halike⟩ := hab.persist_of_eq hS (c := .readlink p (linkRoom k)) rfl hr
      rw [readlinkFrom_eq, hreply, Bytes.take_overwrite]
      dsimp only
      rw [if_pos hfull]
      exact ⟨rfl, halike, nofun⟩
  | case3 k buffer a r target hr hfull ih =>
      intro b hab
      obtain ⟨hreply, -, halike⟩ := hab.persist_of_eq hS (c := .readlink p (linkRoom k)) rfl hr
      rw [readlinkFrom_eq S.faulty.recorded p k buffer b, hreply]
      dsimp only
      rw [if_neg hfull]
      exact ih _ halike

theorem agrees_readlink (hS : Calm S holds) (p : Path) :
    Agrees anyState (S.faulty.recorded.readlink p) anyValue := by
  refine (Agrees.requireNoNul _ _).bind fun _ => ?_
  have hread : Agrees anyState
      (fun s => ⟨.ok (S.faulty.recorded.readlinkFrom p 0 (Bytes.zeros (linkRoom 0)) s).1, [],
        (S.faulty.recorded.readlinkFrom p 0 (Bytes.zeros (linkRoom 0)) s).2⟩)
      fun r s => errno? r ≠ some .eintr ∧ anyState s :=
    Agrees.of_computation fun _ a b hab _ => by
      obtain ⟨hreply, halike, hne⟩ := readlinkFrom_alike hS p 0 _ a b hab
      exact ⟨hreply, halike, hne, trivial⟩
  exact hread.bind fun r => Agrees.of_condition (agrees_accept r)

-- =============================================================== contents

/-- Files that are digested piece by piece agree, and stay open. -/
theorem digestFrom_alike (hS : Calm S holds) (file : Handle) (room : Nat) (buffer : Bytes)
    (ctx : Md5.Context) (a : Recorded (Scripted σ)) :
    ∀ b, Alike n a b → holds file a.state.state →
      (S.faulty.recorded.digestFrom file room buffer ctx b).1
          = (S.faulty.recorded.digestFrom file room buffer ctx a).1
        ∧ Alike n (S.faulty.recorded.digestFrom file room buffer ctx a).2
            (S.faulty.recorded.digestFrom file room buffer ctx b).2
        ∧ errno? (S.faulty.recorded.digestFrom file room buffer ctx a).1 ≠ some .eintr
        ∧ holds file (S.faulty.recorded.digestFrom file room buffer ctx a).2.state.state := by
  fun_induction System.digestFrom S.faulty.recorded file room buffer ctx a with
  | case1 buffer ctx a r e hr =>
      intro b hab hh
      obtain ⟨hreply, hne, halike⟩ := hab.persist_of_eq hS (c := .read file room) rfl hr
      rw [digestFrom_eq, hreply]
      exact ⟨rfl, halike, hne, Alike.holds_persist hS rfl hh⟩
  | case2 buffer ctx a r hr =>
      intro b hab hh
      obtain ⟨hreply, -, halike⟩ := hab.persist_of_eq hS (c := .read file room) rfl hr
      rw [digestFrom_eq, hreply]
      dsimp only
      rw [if_pos rfl]
      exact ⟨rfl, halike, nofun, Alike.holds_persist hS rfl hh⟩
  | case3 buffer ctx a r piece hr hp ih =>
      intro b hab hh
      obtain ⟨hreply, -, halike⟩ := hab.persist_of_eq hS (c := .read file room) rfl hr
      rw [Bytes.take_overwrite] at ih ⊢
      rw [digestFrom_eq S.faulty.recorded file room buffer ctx b, hreply]
      dsimp only
      rw [if_neg hp]
      exact ih _ halike (Alike.holds_persist hS rfl hh)

theorem agrees_closeRead (hS : Calm S holds) (p : Path) (file : Handle) :
    Agrees (holds file) (S.faulty.recorded.closeRead p file) anyValue := by
  refine Agrees.issue_close_bind (c := .close file) rfl (fun s hh => ?_) (Agrees.closed _)
  rw [hS.close hh]
  rfl

theorem agrees_md5 (hS : Calm S holds) (p : Path) (room : Nat) :
    Agrees anyState (S.faulty.recorded.md5 p room) anyValue := by
  unfold md5
  by_cases hroom : room = 0
  · rw [if_pos hroom, Op.fail_bind]
    exact Agrees.fail (show Errno.einval ≠ .eintr by decide)
  rw [if_neg hroom]
  refine (Agrees.requireNoNul _ _).bind fun _ => ?_
  rw [← bind_assoc]
  refine (Agrees.persist_accept hS (.openFile p) rfl fun _ _ => hS.openFile).bind
    fun file => ?_
  have hread : Agrees (holds file)
      (fun s => ⟨.ok (S.faulty.recorded.digestFrom file room [] {} s).1, [],
        (S.faulty.recorded.digestFrom file room [] {} s).2⟩)
      fun r s => errno? r ≠ some .eintr ∧ holds file s :=
    Agrees.of_computation fun _ a b hab hh => digestFrom_alike hS file room [] {} a b hab hh
  refine hread.bind fun r => ?_
  refine Agrees.of_condition fun hr => ?_
  cases r with
  | error e =>
      refine Agrees.issue_close_bind rfl (fun _ _ => rfl) fun _ => ?_
      exact agrees_fail hr
  | ok ctx =>
      refine (agrees_closeRead hS p file).bind fun _ => ?_
      exact (Agrees.emit _).bind fun _ => Agrees.pure _ fun _ h => h

-- ============================================================= parameters

theorem contentsFrom_eq {τ : Type} (T : System τ) (file : Handle) (s : τ) :
    T.contentsFrom file s =
      match (T.persist (.read file wholeRoom) s).1 with
      | .error e => (.error e, (T.persist (.read file wholeRoom) s).2)
      | .ok piece =>
          if piece = [] then (.ok [], (T.persist (.read file wholeRoom) s).2)
          else
            ((T.contentsFrom file (T.persist (.read file wholeRoom) s).2).1.map (piece ++ ·),
              (T.contentsFrom file (T.persist (.read file wholeRoom) s).2).2) := by
  rw [contentsFrom]
  split
  next e he => rw [he]
  next piece hp =>
    rw [hp]
    dsimp only
    split <;> rfl

theorem contentsFrom_alike (hS : Calm S holds) (file : Handle)
    (a : Recorded (Scripted σ)) :
    ∀ b, Alike n a b →
      (S.faulty.recorded.contentsFrom file b).1 = (S.faulty.recorded.contentsFrom file a).1
        ∧ Alike n (S.faulty.recorded.contentsFrom file a).2
            (S.faulty.recorded.contentsFrom file b).2
        ∧ errno? (S.faulty.recorded.contentsFrom file a).1 ≠ some .eintr := by
  fun_induction System.contentsFrom S.faulty.recorded file a with
  | case1 a r e hr =>
      intro b hab
      obtain ⟨hreply, hne, halike⟩ := hab.persist_of_eq hS (c := .read file wholeRoom) rfl hr
      rw [contentsFrom_eq, hreply]
      exact ⟨rfl, halike, hne⟩
  | case2 a r hr =>
      intro b hab
      obtain ⟨hreply, -, halike⟩ := hab.persist_of_eq hS (c := .read file wholeRoom) rfl hr
      rw [contentsFrom_eq, hreply]
      dsimp only
      rw [if_pos rfl]
      exact ⟨rfl, halike, nofun⟩
  | case3 a r piece hr hp rest ih =>
      intro b hab
      obtain ⟨hreply, -, halike⟩ := hab.persist_of_eq hS (c := .read file wholeRoom) rfl hr
      obtain ⟨hrest, halike', hne⟩ := ih _ halike
      rw [contentsFrom_eq S.faulty.recorded file b, hreply]
      dsimp only
      rw [if_neg hp]
      refine ⟨congrArg (Except.map (piece ++ ·)) hrest, halike', ?_⟩
      show errno? (rest.1.map (piece ++ ·)) ≠ some .eintr
      cases hx : rest.1 with
      | ok v => exact nofun
      | error e =>
          change errno? rest.1 ≠ some .eintr at hne
          rw [hx] at hne
          exact hne

/-- The contents of a file agree: how it is closed is of no interest. -/
theorem agrees_contents (hS : Calm S holds) (subject : Subject) (p : Path) :
    Agrees anyState (S.faulty.recorded.contents subject p) anyValue := by
  unfold contents
  by_cases hnul : p.hasNul = true
  · rw [if_pos hnul, Op.fail_bind]
    exact Agrees.fail (show Errno.einval ≠ .eintr by decide)
  rw [if_neg hnul]
  rw [← bind_assoc]
  refine (Agrees.persist_accept hS (.openFile p) rfl fun _ _ => hS.openFile).bind
    fun file => ?_
  have hread : Agrees (holds file)
      (fun s => ⟨.ok (S.faulty.recorded.contentsFrom file s).1, [],
        (S.faulty.recorded.contentsFrom file s).2⟩)
      fun r s => errno? r ≠ some .eintr ∧ anyState s :=
    Agrees.of_computation fun _ a b hab _ => by
      obtain ⟨hreply, halike, hne⟩ := contentsFrom_alike hS file a b hab
      exact ⟨hreply, halike, hne, trivial⟩
  refine hread.bind fun r => Agrees.of_condition fun hr => ?_
  exact Agrees.issue_close_bind rfl (fun _ _ => rfl) fun _ => agrees_accept r hr

theorem agrees_systemParameter (hS : Calm S holds) (name : String) :
    Agrees anyState (S.faulty.recorded.systemParameter name) anyValue := by
  unfold systemParameter
  cases Parameter.path? name with
  | none => exact Agrees.fail (show Errno.einval ≠ .eintr by decide)
  | some p =>
      refine (agrees_contents hS _ p).bind fun bytes => ?_
      cases bytes.toString? with
      | none => exact Agrees.fail (show Errno.eio ≠ .eintr by decide)
      | some text =>
          dsimp only
          cases Parameter.value? text with
          | none => exact Agrees.fail (show Errno.einval ≠ .eintr by decide)
          | some v => exact Agrees.pure _ fun _ h => h

end PosixFiles.System
