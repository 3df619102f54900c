/-
The target of a symbolic link, read whole.

# What attempts see

A call that reads a link fills the room it is given and says how much of it
was filled, but not whether there was more. `System.Sees` says what the
attempts of one reading see, one target or one failure for each of them,
with interruptions anywhere between. Every attempt has twice the room of the
one before, and is handed as much of what it sees as there is room for.
Nothing ties one target to the next: the link may be replaced at any time.

# Where it ends

An attempt whose target leaves room has seen all of it, and that is the
first certain sign; one that exactly fills the room is not enough. Targets
of bounded length are outgrown sooner or later (`exists_endsAt`), and then
the reading is over and gives the target that was seen last
(`readlinkFrom_of_sees`). The buffer may hold what is left of earlier
targets; it has no part in what is given. The induction is on the attempts
still to come, for every buffer.

In a session a link has one target, which is shorter than the room of the
first attempt; so a link that could be created is read as it was created.
-/
import Mathlib.Algebra.Group.Nat.Defs
import Mathlib.Data.Nat.Find
import PosixFiles.Proofs.Operation.Ruling
import PosixFiles.Proofs.Operation.Session
import PosixFiles.Proofs.World.Creation

namespace PosixFiles

/-- An exchange that is no interruption. -/
def Exchange.isReplied (x : Exchange) : Bool :=
  errno? x.reply != some .eintr

namespace System

variable {σ : Type} {S : System σ} {p : Path} {seen : Nat → Except Errno Bytes} {k n : Nat}

theorem linkRoom_eq (k : Nat) : linkRoom k = 4096 * 2 ^ k := by
  induction k with
  | zero => rfl
  | succ k ih => rw [linkRoom, ih, Nat.pow_succ, Nat.mul_left_comm, Nat.mul_comm 2]

-- ============================================================== attempts

/-- What an attempt is handed of what it sees: a target as far as there is
room for it, or a failure. -/
def attemptReply (seen : Nat → Except Errno Bytes) (k : Nat) : Except Errno Bytes :=
  (seen k).map (·.take (4096 * 2 ^ k))

/-- An attempt, as it stands on record. -/
def attempt (p : Path) (seen : Nat → Except Errno Bytes) (k : Nat) : Exchange :=
  ⟨.readlink p (4096 * 2 ^ k), attemptReply seen k⟩

/-- From one state to another, the attempts with the given numbers, first
and last, see what is to be seen. -/
inductive Sees (S : System σ) (p : Path) (seen : Nat → Except Errno Bytes) :
    Nat → σ → Nat → σ → Prop where
  | last {k : Nat} {s t : σ}
      (h : S.call (.readlink p (4096 * 2 ^ k)) s = (attemptReply seen k, t)) :
      Sees S p seen k s k t
  | interrupted {k n : Nat} {s t u : σ}
      (h : S.call (.readlink p (4096 * 2 ^ k)) s = (.error .eintr, t))
      (more : Sees S p seen k t n u) : Sees S p seen k s n u
  | again {k n : Nat} {s t u : σ}
      (h : S.call (.readlink p (4096 * 2 ^ k)) s = (attemptReply seen k, t))
      (more : Sees S p seen (k + 1) t n u) : Sees S p seen k s n u

/-- The attempt with which reading ends: it fails or sees a target that
leaves room, and the targets before it left none. -/
structure EndsAt (seen : Nat → Except Errno Bytes) (n : Nat) : Prop where
  fills : ∀ k < n, ∃ target, seen k = .ok target ∧ 4096 * 2 ^ k ≤ target.length
  fits : ∀ target, seen n = .ok target → target.length < 4096 * 2 ^ n

/-- Targets of bounded length do not go on filling all the room there is.
-/
theorem exists_endsAt {bound : Nat} (hbound : ∀ k target, seen k = .ok target →
    target.length ≤ bound) : ∃ n, EndsAt seen n := by
  classical
  have houtgrown : ∃ n, ∀ target, seen n = .ok target → target.length < 4096 * 2 ^ n := by
    refine ⟨bound, fun target htarget => ?_⟩
    have hle := hbound bound target htarget
    have hlt : bound < 2 ^ bound := Nat.lt_two_pow_self
    omega
  refine ⟨Nat.find houtgrown, fun k hk => ?_, Nat.find_spec houtgrown⟩
  have hfills := Nat.find_min houtgrown hk
  push Not at hfills
  exact hfills

namespace Sees

theorem le {s t : σ} (h : S.Sees p seen k s n t) : k ≤ n := by
  induction h with
  | last h => exact Nat.le_refl _
  | interrupted h more ih => exact ih
  | again h more ih => exact Nat.le_of_succ_le ih

end Sees

theorem errno?_attemptReply (hseen : ∀ k, seen k ≠ .error .eintr) (k : Nat) :
    errno? (attemptReply seen k) ≠ some .eintr := by
  unfold attemptReply
  cases hk : seen k with
  | ok target => exact nofun
  | error e =>
      intro he
      rw [Option.some.inj he] at hk
      exact hseen k hk

/-- What the last attempt sees is what comes of all of them. -/
theorem readlinkFrom_of_sees (hends : EndsAt seen n) (hseen : ∀ k, seen k ≠ .error .eintr)
    {s t : σ} (h : S.Sees p seen k s n t) (buffer : Bytes) :
    S.readlinkFrom p k buffer s = (seen n, t) := by
  induction h generalizing buffer with
  | @last k s t h =>
      have hreply : S.persist (.readlink p (4096 * 2 ^ k)) s = (attemptReply seen k, t) := by
        rw [S.persist_eq_call (by rw [h]; exact errno?_attemptReply hseen k), h]
      rw [readlinkFrom_eq, linkRoom_eq, hreply, attemptReply]
      cases hk : seen k with
      | error e => rfl
      | ok target =>
          have hfits := hends.fits target hk
          dsimp only [Except.map]
          rw [List.take_of_length_le (Nat.le_of_lt hfits), if_pos hfits]
  | @interrupted k n s t u h more ih =>
      -- what is replied in the end is replied from where the interruption left
      have hreply : S.persist (.readlink p (linkRoom k)) s
          = S.persist (.readlink p (linkRoom k)) t := by
        rw [linkRoom_eq, S.persist_of_interrupted (by rw [h]; rfl), h]
      have hmore := ih hends buffer
      rw [readlinkFrom_eq] at hmore ⊢
      rw [hreply]
      exact hmore
  | @again k n s t u h more ih =>
      obtain ⟨target, hk, hfills⟩ := hends.fills k more.le
      have hreply : S.persist (.readlink p (4096 * 2 ^ k)) s = (attemptReply seen k, t) := by
        rw [S.persist_eq_call (by rw [h]; exact errno?_attemptReply hseen k), h]
      have hfull : ¬ (target.take (4096 * 2 ^ k)).length < 4096 * 2 ^ k := by
        rw [List.length_take_of_le hfills]
        exact Nat.lt_irrefl _
      rw [readlinkFrom_eq, linkRoom_eq, hreply, attemptReply, hk]
      dsimp only [Except.map]
      rw [if_neg hfull]
      exact ih hends _

/-- What is seen is put on record. -/
theorem Sees.recorded (hseen : ∀ k, seen k ≠ .error .eintr) {s t : σ}
    (h : S.Sees p seen k s n t) :
    ∀ r : Recorded σ, r.state = s → ∃ u, S.recorded.Sees p seen k r n u ∧ u.state = t
      ∧ u.exchanges.filter Exchange.isReplied
        = r.exchanges.filter Exchange.isReplied
          ++ (List.range' k (n + 1 - k)).map (attempt p seen) := by
  have hreplied : ∀ k, [attempt p seen k].filter Exchange.isReplied = [attempt p seen k] :=
    fun k => List.filter_cons_of_pos (bne_iff_ne.2 (errno?_attemptReply hseen k))
  induction h with
  | @last k s t h =>
      rintro r rfl
      obtain ⟨u, hcall, hu, hrecord⟩ := call_recorded h
      refine ⟨u, .last hcall, hu, ?_⟩
      rw [hrecord, List.filter_append, Nat.add_sub_cancel_left]
      exact congrArg _ (hreplied k)
  | @interrupted k n s t u h more ih =>
      rintro r rfl
      obtain ⟨r', hcall, hr', hrecord⟩ := call_recorded h
      obtain ⟨v, hsees, hv, hmore⟩ := ih r' hr'
      refine ⟨v, .interrupted hcall hsees, hv, ?_⟩
      rw [hmore, hrecord, List.filter_append]
      change _ ++ [] ++ _ = _
      rw [List.append_nil]
  | @again k n s t u h more ih =>
      rintro r rfl
      obtain ⟨r', hcall, hr', hrecord⟩ := call_recorded h
      obtain ⟨v, hsees, hv, hmore⟩ := ih r' hr'
      refine ⟨v, .again hcall hsees, hv, ?_⟩
      have hrange : n + 1 - k = n + 1 - (k + 1) + 1 := by
        have := more.le
        omega
      rw [hmore, hrecord, List.filter_append, hrange, List.range'_succ, List.map_cons,
        List.append_assoc]
      change _ ++ ([attempt p seen k].filter _ ++ _) = _
      rw [hreplied]
      rfl

/-- The reply to an attempt that sees something, or is interrupted. -/
def sightReply : Option (Except Errno Bytes) → PreparedReply
  | some sight => fun
      | .readlink _ room => sight.map (·.take room)
      | _ => .error .ebadf
  | none => fun _ => .error .eintr

/-- The replies to an attempt: some interruptions, and then what it sees. -/
def sightReplies (seen : Nat → Except Errno Bytes) (interruptions : Nat → Nat) (k : Nat) :
    List PreparedReply :=
  List.replicate (interruptions k) (sightReply none) ++ [sightReply (some (seen k))]

theorem sees_prepared_interrupted {s rest : List PreparedReply}
    (h : prepared.Sees p seen k s n rest) (m : Nat) :
    prepared.Sees p seen k (List.replicate m (sightReply none) ++ s) n rest := by
  induction m with
  | zero => exact h
  | succ m ih => exact .interrupted rfl ih

/-- Any targets can be seen, with interruptions anywhere. -/
theorem sees_prepared (seen : Nat → Except Errno Bytes) (interruptions : Nat → Nat)
    (rest : List PreparedReply) (m : Nat) :
    ∀ k, prepared.Sees p seen k
      ((List.range' k (m + 1)).flatMap (sightReplies seen interruptions) ++ rest) (k + m) rest := by
  induction m with
  | zero =>
      intro k
      rw [List.range'_one, List.flatMap_singleton, sightReplies, List.append_assoc]
      exact sees_prepared_interrupted (.last rfl) _
  | succ m ih =>
      intro k
      have hmore := ih (k + 1)
      rw [Nat.succ_add] at hmore
      rw [List.range'_succ, List.flatMap_cons, sightReplies, List.append_assoc,
        List.append_assoc]
      exact sees_prepared_interrupted (.again rfl hmore) _

end System

-- =============================================================== sessions

/-- A link that was created is what its path leads to, and it has the
target it was given. -/
theorem World.targetOf_of_symlink {w w' : World} {target p : Path}
    (hroot : w.isDirectory World.root = true) (hcwd : w.isDirectory w.cwd = true)
    (h : w.symlink target p = .ok w') :
    target.length < pathMax
      ∧ ∀ room, Session.targetOf p room w' = .ok (target.take room) := by
  unfold World.symlink at h
  split at h
  · cases h
  next hne =>
    split at h
    case isFalse => cases h
    case isTrue hlen =>
      obtain ⟨dir, n, hvacancy, rfl⟩ := exists_of_create_ok h
      obtain ⟨names, links, hp, hpass, hs, hn, hfree, hslash⟩ := of_vacancy_ok hvacancy
      obtain ⟨d, hd⟩ := Option.isSome_iff_exists.1 (isDirectory_of_passage hroot hcwd hpass)
      obtain ⟨a, ha, -⟩ := exists_node_of_directory? hd
      have hlt : dir < w.nodes.size := (Array.getElem?_eq_some_iff.1 ha).1
      refine ⟨hlen, fun room => ?_⟩
      unfold Session.targetOf
      rw [file_put_of_noFollow hp hpass hs hd hn hfree (hslash rfl)]
      simp only [bind, Except.bind]
      rw [body?_eq_some_iff.2 ⟨_, nodes_put_size hlt n _, rfl⟩]

/-- Creating a link that succeeds has done so in the world of the session,
and its path has no NUL. -/
theorem Session.exists_of_symlink_ok {target p : Path} {s : Session}
    (h : ((system.symlink target p).run s).result = .ok ()) :
    ∃ w, s.world.symlink target p = .ok w ∧ [p].any Path.hasNul = false
      ∧ ((system.symlink target p).run s).state = { s with world := w } := by
  unfold System.symlink at h ⊢
  cases hnul : [target, p].any Path.hasNul with
  | true =>
      rw [Op.requireNoNul_bind_of_hasNul _ hnul] at h
      cases h
  | false =>
      rw [Op.requireNoNul_bind _ hnul, Op.run_persist_bind, System.persist_session] at h ⊢
      cases hact : (s.act (·.symlink target p)).1 with
      | error e =>
          change ((Op.accept _ (s.act (·.symlink target p)).1).run _).result = _ at h
          rw [hact] at h
          cases h
      | ok u =>
          obtain ⟨w, hw, hstate⟩ := exists_of_act_ok hact
          rw [List.any_cons, Bool.or_eq_false_iff] at hnul
          refine ⟨w, hw, hnul.2, ?_⟩
          change ((Op.accept _ (s.act (·.symlink target p)).1).run _).state = _
          rw [hact]
          exact hstate

-- ============================================================== the whole

namespace System

/-- Reading a link gives its whole target. Whatever targets of bounded
length the attempts see, one of them is the first that leaves room or
fails. On every system, reading ends with this attempt: all that is on
record besides interruptions are the attempts up to it, each with twice the
room of the one before; and the result is what it sees, the whole target or
the failure. So in a session, a link that could be created is read as the
target it was given. -/
theorem readlink_gives_whole_target {p : Path} (hnul : p.hasNul = false)
    {seen : Nat → Except Errno Bytes} (hseen : ∀ k, seen k ≠ .error .eintr) {bound : Nat}
    (hbound : ∀ k target, seen k = .ok target → target.length ≤ bound) :
    (∃ n, EndsAt seen n)
      ∧ (∀ n, EndsAt seen n → ∀ {σ : Type} (S : System σ) (s t : σ), S.Sees p seen 0 s n t →
        let o := (S.recorded.readlink p).run ⟨[], s⟩
        o.result = (seen n).mapError (.ofErrno (.path p)) ∧ o.state.state = t
          ∧ o.state.exchanges.filter Exchange.isReplied
            = (List.range (n + 1)).map (attempt p seen))
      ∧ ∀ (s : Session) (target q : Path), s.world.isDirectory World.root = true →
        s.world.isDirectory s.world.cwd = true →
        ((Session.system.symlink target q).run s).result = .ok () →
        ((Session.system.readlink q).run
          ((Session.system.symlink target q).run s).state).result = .ok target := by
  refine ⟨exists_endsAt hbound, fun n hends σ S s t hsees => ?_,
    fun s target q hroot hcwd hcreated => ?_⟩
  · obtain ⟨u, hrecorded, hu, hexchanges⟩ := hsees.recorded hseen ⟨[], s⟩ rfl
    intro o
    have ho : o = ⟨(seen n).mapError (.ofErrno (.path p)), [], u⟩ := by
      show (S.recorded.readlink p).run ⟨[], s⟩ = _
      rw [run_readlink S.recorded (by simp [hnul]), readlinkFrom_of_sees hends hseen hrecorded]
    rw [ho]
    refine ⟨rfl, hu, ?_⟩
    rw [hexchanges, Nat.sub_zero, List.range_eq_range']
    rfl
  · obtain ⟨w, hw, hq, hstate⟩ := Session.exists_of_symlink_ok hcreated
    obtain ⟨hlen, htarget⟩ := World.targetOf_of_symlink hroot hcwd hw
    have hends : EndsAt (fun _ => .ok target) 0 := by
      refine ⟨nofun, fun target' htarget' => ?_⟩
      cases htarget'
      exact hlen
    have hsees : Session.system.Sees q (fun _ => .ok target) 0 { s with world := w } 0
        { s with world := w } := by
      refine .last ?_
      show Session.ask _ _ = _
      rw [Session.ask, htarget]
      rfl
    rw [hstate, run_readlink _ hq, readlinkFrom_of_sees hends (fun _ => nofun) hsees]
    rfl

/-- A link whose first target fills all the room there is; the second
attempt is interrupted, and then the link has been replaced by one with a
short target. And a link in a session. -/
theorem readlink_gives_whole_target_replaced :
    let p : Path := [0x6c]
    let seen : Nat → Except Errno Bytes := fun k =>
      .ok (if k = 0 then List.replicate 5000 0x61 else [0x62])
    let s := (List.range' 0 2).flatMap (sightReplies seen id) ++ []
    let o := (prepared.recorded.readlink p).run ⟨[], s⟩
    let top : Node := ⟨.directory { parent := 0 }, 0o755, true, [], {}, {}, {}⟩
    let session : Session := { world := { nodes := #[top], cwd := 0, mask := 0o022, now := {} } }
    let made := (Session.system.symlink [0x62] p).run session
    p.hasNul = false ∧ (∀ k, seen k ≠ .error .eintr)
      ∧ (∀ k target, seen k = .ok target → target.length ≤ 5000)
      ∧ EndsAt seen 1 ∧ prepared.Sees p seen 0 s 1 []
      ∧ (o.result = .ok [0x62] ∧ o.state.state = []
        ∧ o.state.exchanges.filter Exchange.isReplied = [attempt p seen 0, attempt p seen 1])
      ∧ session.world.isDirectory World.root = true
      ∧ session.world.isDirectory session.world.cwd = true ∧ made.result = .ok ()
      ∧ ((Session.system.readlink p).run made.state).result = .ok [0x62] := by
  intro p seen s o top session made
  have hnul : p.hasNul = false := by decide
  have hseen : ∀ k, seen k ≠ .error .eintr := fun _ => nofun
  have hbound : ∀ k target, seen k = .ok target → target.length ≤ 5000 := by
    intro k target htarget
    cases htarget
    split
    · exact Nat.le_of_eq List.length_replicate
    · decide
  have hends : EndsAt seen 1 := by
    refine ⟨fun k hk => ?_, fun target htarget => ?_⟩
    · obtain rfl : k = 0 := Nat.lt_one_iff.1 hk
      refine ⟨_, rfl, ?_⟩
      rw [if_pos rfl, List.length_replicate]
      decide
    · cases htarget
      decide
  have hsees : prepared.Sees p seen 0 s 1 [] := sees_prepared seen id [] 1 0
  have hmade : made.result = .ok () := by decide +kernel
  obtain ⟨-, hreads, hsession⟩ := readlink_gives_whole_target hnul hseen hbound
  exact ⟨hnul, hseen, hbound, hends, hsees, hreads 1 hends prepared s [] hsees, by decide,
    by decide, hmade, hsession session [0x62] p (by decide) (by decide) hmade⟩

end System
end PosixFiles
