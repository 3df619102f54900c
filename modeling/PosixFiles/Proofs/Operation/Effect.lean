/-
Requests that fail, and what they leave as it was.

Operations are made of several calls, one of them repeated while it is
interrupted, and one of them made in the place of another; so it has to be
seen that none of them fails once a call has taken effect. All but one are
like that: only the creation of directories all the way down may fail after
it has created some (`Trial.failure_leaves_world`).

What only asks keeps every guarded view. What changes files makes its
change with its last call, so it keeps the view on failure: before that
call it has only asked, and after it nothing fails any more.
-/
import PosixFiles.Proofs.Listing.Stream
import PosixFiles.Proofs.Operation.View
import PosixFiles.Trial

namespace PosixFiles

variable {σ ω α : Type}

-- ================================================================ asking

namespace System

open Op

variable {S : System σ} {view : σ → ω}

theorem keeps_stat (hS : S.Guards view) (follow : Bool) (p : Path) :
    Keeps view (S.stat follow p) :=
  (keeps_requireNoNul view _ _).bind fun _ =>
    (keeps_persist hS rfl).bind fun r => keeps_accept view _ r

theorem keeps_statOutcome (hS : S.Guards view) (follow : Bool) (p : Path) :
    Keeps view (S.statOutcome follow p) := by
  refine (keeps_requireNoNul view _ _).bind fun _ => (keeps_persist hS rfl).bind fun r => ?_
  cases r with
  | ok s => exact keeps_pure view _
  | error e =>
      dsimp only
      split
      · exact keeps_fail view _
      · exact (keeps_emit view _).bind fun _ => keeps_pure view _

theorem readlinkFrom_keeps (hS : S.Guards view) (p : Path) (k : Nat) (buffer : Bytes) (s : σ) :
    view (S.readlinkFrom p k buffer s).2 = view s := by
  fun_induction System.readlinkFrom S p k buffer s with
  | case1 k buffer s r e hr => exact hS.persist_of_asks rfl s
  | case2 k buffer s r target hr hfull => exact hS.persist_of_asks rfl s
  | case3 k buffer s r target hr hfull ih => exact ih.trans (hS.persist_of_asks rfl s)

theorem keeps_readlink (hS : S.Guards view) (p : Path) : Keeps view (S.readlink p) := by
  have hread : Keeps view fun s =>
      ⟨.ok (S.readlinkFrom p 0 (Bytes.zeros (linkRoom 0)) s).1, [],
        (S.readlinkFrom p 0 (Bytes.zeros (linkRoom 0)) s).2⟩ :=
    readlinkFrom_keeps hS p 0 _
  exact (keeps_requireNoNul view _ _).bind fun _ => hread.bind fun r => keeps_accept view _ r

theorem keeps_getxattr (hS : S.Guards view) (follow : Bool) (p : Path) (name : Bytes)
    (room : Nat) : Keeps view (S.getxattr follow p name room) := by
  unfold getxattr
  by_cases hroom : room = 0
  · rw [if_pos hroom, fail_bind]
    exact keeps_fail view _
  rw [if_neg hroom]
  refine (keeps_requireNoNul view _ _).bind fun _ => (keeps_issue hS rfl).bind fun r => ?_
  cases r with
  | ok value => exact keeps_pure view _
  | error e =>
      dsimp only
      split
      · exact (keeps_emit view _).bind fun _ => keeps_pure view _
      · exact keeps_fail view _

-- ============================================== asking through a handle

theorem digestFrom_keeps (hS : S.Guards view) (file : Handle) (room : Nat) (buffer : Bytes)
    (ctx : Md5.Context) (s : σ) : view (S.digestFrom file room buffer ctx s).2 = view s := by
  fun_induction System.digestFrom S file room buffer ctx s with
  | case1 buffer ctx s r e hr => exact hS.persist_of_asks rfl s
  | case2 buffer ctx s r hr => exact hS.persist_of_asks rfl s
  | case3 buffer ctx s r piece hr hp ih => exact ih.trans (hS.persist_of_asks rfl s)

theorem keeps_closeRead (hS : S.Guards view) (p : Path) (file : Handle) :
    Keeps view (S.closeRead p file) :=
  (keeps_issue hS rfl).bind fun r => keeps_closed view _ r

theorem keeps_md5 (hS : S.Guards view) (p : Path) (room : Nat) : Keeps view (S.md5 p room) := by
  unfold md5
  by_cases hroom : room = 0
  · rw [if_pos hroom, fail_bind]
    exact keeps_fail view _
  rw [if_neg hroom]
  refine (keeps_requireNoNul view _ _).bind fun _ => (keeps_persist hS rfl).bind fun r =>
    (keeps_accept view _ r).bind fun file => ?_
  have hread : Keeps view fun s =>
      ⟨.ok (S.digestFrom file room [] {} s).1, [], (S.digestFrom file room [] {} s).2⟩ :=
    digestFrom_keeps hS file room [] {}
  refine hread.bind fun read => ?_
  cases read with
  | error e => exact (keeps_issue hS rfl).bind fun _ => keeps_fail view _
  | ok ctx =>
      exact (keeps_closeRead hS p file).bind fun _ => (keeps_emit view _).bind fun _ =>
        keeps_pure view _

theorem contentsFrom_keeps (hS : S.Guards view) (file : Handle) (s : σ) :
    view (S.contentsFrom file s).2 = view s := by
  fun_induction System.contentsFrom S file s with
  | case1 s r e hr => exact hS.persist_of_asks rfl s
  | case2 s r hr => exact hS.persist_of_asks rfl s
  | case3 s r piece hr hp rest ih => exact ih.trans (hS.persist_of_asks rfl s)

theorem keeps_contents (hS : S.Guards view) (subject : Subject) (p : Path) :
    Keeps view (S.contents subject p) := by
  unfold contents
  by_cases hnul : p.hasNul = true
  · rw [if_pos hnul, fail_bind]
    exact keeps_fail view _
  rw [if_neg hnul]
  refine (keeps_persist hS rfl).bind fun r => (keeps_accept view _ r).bind fun file => ?_
  have hread : Keeps view fun s => ⟨.ok (S.contentsFrom file s).1, [], (S.contentsFrom file s).2⟩ :=
    contentsFrom_keeps hS file
  exact hread.bind fun read => (keeps_issue hS rfl).bind fun _ => keeps_accept view _ read

theorem keeps_systemParameter (hS : S.Guards view) (name : String) :
    Keeps view (S.systemParameter name) := by
  unfold systemParameter
  cases Parameter.path? name with
  | none => exact keeps_fail view _
  | some p =>
      refine (keeps_contents hS _ p).bind fun bytes => ?_
      cases bytes.toString? with
      | none => exact keeps_fail view _
      | some text =>
          dsimp only
          cases Parameter.value? text with
          | none => exact keeps_fail view _
          | some v => exact keeps_pure view v

theorem keeps_typeOfEntry (hS : S.Guards view) (dir : Handle) (e : StreamEntry)
    (followLinks : Bool) : Keeps view (S.typeOfEntry dir e followLinks) := by
  have hstatus : Keeps view (S.typeByStatus dir e.name) := by
    refine (keeps_issue hS rfl).bind fun r => ?_
    cases r with
    | ok s => exact keeps_pure view _
    | error e => exact (keeps_emit view _).bind fun _ => keeps_pure view _
  unfold typeOfEntry
  split
  · exact keeps_pure view _
  split
  · exact keeps_pure view _
  split
  · exact keeps_pure view _
  split
  · exact hstatus
  · exact keeps_pure view _

theorem keeps_typedEntry (hS : S.Guards view) (dir : Handle) (query : TypeQuery)
    (e : StreamEntry) : Keeps view (S.typedEntry dir query e) := by
  cases query with
  | none => exact keeps_pure view _
  | ofEntry => exact (keeps_typeOfEntry hS dir e false).bind fun _ => keeps_pure view _
  | ofTarget => exact (keeps_typeOfEntry hS dir e true).bind fun _ => keeps_pure view _

theorem entriesFrom_keeps (hS : S.Guards view) (p : Path) (dir : Handle) (query : TypeQuery)
    (s : σ) : view (S.entriesFrom p dir query s).state = view s := by
  have hnext : ∀ s, view (S.call (.readdir dir) s).2 = view s := hS.call_of_asks rfl
  fun_induction System.entriesFrom S p dir query s with
  | case1 s r hr => exact hnext s
  | case2 s r e hr hdots ih => exact ih.trans (hnext s)
  | case3 s r e hr hdots typed f htyped => exact (keeps_typedEntry hS dir query e _).trans (hnext s)
  | case4 s r e hr hdots typed entry htyped rest ih =>
      exact ih.trans ((keeps_typedEntry hS dir query e _).trans (hnext s))
  | case5 s r e hr hp rest ih => exact ih.trans (hnext s)
  | case6 s r e hr hp => exact hnext s

theorem keeps_closeListing (hS : S.Guards view) (p : Path) (dir : Handle) :
    Keeps view (S.closeListing p dir) :=
  (keeps_issue hS rfl).bind fun r => keeps_closed view _ r

theorem keeps_entriesOf (hS : S.Guards view) (p : Path) (dir : Handle) (query : TypeQuery) :
    Keeps view (S.entriesOf p dir query) := by
  intro s
  have hread := entriesFrom_keeps hS p dir query s
  cases hr : (S.entriesFrom p dir query s).result with
  | error f =>
      rw [run_entriesOf_of_error _ hr]
      exact (hS.call_of_asks rfl _).trans hread
  | ok entries =>
      rw [run_entriesOf_of_ok _ hr]
      exact (keeps_closeListing hS p dir _).trans hread

theorem keeps_readDir (hS : S.Guards view) (p : Path) (query : TypeQuery) :
    Keeps view (S.readDir p query) :=
  (keeps_requireNoNul view _ _).bind fun _ => (keeps_persist hS rfl).bind fun r =>
    (keeps_accept view _ r).bind fun dir => (keeps_entriesOf hS p dir query).bind fun _ =>
      (keeps_emit view _).bind fun _ => keeps_pure view _

-- ============================================================== changing

/-- A check, and a call that changes files as the last thing done. -/
theorem keepsOnFailure_checked (hS : S.Guards view) {subject : Subject} {arguments : List Bytes}
    (c : Call) {f : Reply c → Op σ α} (hok : ∀ a s, ∃ b, ((f (.ok a)).run s).result = .ok b)
    (herror : ∀ e, KeepsOnFailure view (f (.error e))) :
    KeepsOnFailure view (Op.requireNoNul subject arguments >>= fun _ => Op.persist S c >>= f) :=
  (keeps_requireNoNul view _ _).bind_onFailure fun _ =>
    keepsOnFailure_persist_bind hS c hok herror

/-- The same when what is made of the reply is to accept it. -/
theorem keepsOnFailure_accepted (hS : S.Guards view) {subject : Subject}
    {arguments : List Bytes} (c : Call) :
    KeepsOnFailure view (Op.requireNoNul subject arguments >>= fun _ =>
      Op.persist S c >>= fun r => Op.accept subject r) :=
  keepsOnFailure_checked hS c (fun a _ => ⟨a, rfl⟩) fun _ => (keeps_accept view _ _).onFailure

theorem keepsOnFailure_deleted (p : Path) (absorbed : Errno → Bool) (e : Errno) :
    KeepsOnFailure view (deleted p absorbed (.error e) : Op σ Bool) := by
  unfold deleted
  dsimp only
  split
  · exact ((keeps_emit view _).bind fun _ => keeps_pure view _).onFailure
  · exact (keeps_fail view _).onFailure

theorem keepsOnFailure_unlink (hS : S.Guards view) (p : Path) :
    KeepsOnFailure view (S.unlink p) :=
  keepsOnFailure_checked hS (.unlink p) (fun _ _ => ⟨true, rfl⟩) (keepsOnFailure_deleted p _)

theorem keepsOnFailure_remove (hS : S.Guards view) (p : Path) :
    KeepsOnFailure view (S.remove p) :=
  keepsOnFailure_checked hS (.remove p) (fun _ _ => ⟨true, rfl⟩) (keepsOnFailure_deleted p _)

theorem keepsOnFailure_mkdir (hS : S.Guards view) (p : Path) (mode : UInt32) :
    KeepsOnFailure view (S.mkdir p mode) := by
  refine keepsOnFailure_checked hS (.mkdir p mode) (fun _ _ => ⟨true, rfl⟩) fun e => ?_
  dsimp only
  split
  · exact ((keeps_emit view _).bind fun _ => keeps_pure view _).onFailure
  · exact (keeps_fail view _).onFailure

/-- The older call comes after a call that failed and one that only asks. -/
theorem keepsOnFailure_utimeCoarse (hS : S.Guards view) (p : Path) (now : Bool)
    (mtime : Int64) : KeepsOnFailure view (S.utimeCoarse p now mtime) := by
  have hset : ∀ a m, KeepsOnFailure view
      (Op.persist S (.utime p a m) >>= fun r => Op.accept (.path p) r) := fun a m =>
    keepsOnFailure_persist_bind hS (.utime p a m) (fun u _ => ⟨u, rfl⟩)
      fun _ => (keeps_accept view _ _).onFailure
  have hpresent : Keeps view S.present := fun _ => rfl
  refine (keeps_persist hS (c := .stat true p) rfl).bind_onFailure fun r =>
    (keeps_accept view _ r).bind_onFailure fun current => ?_
  cases now with
  | true => exact hpresent.bind_onFailure fun m => hset _ m
  | false => exact (keeps_pure view mtime).bind_onFailure fun m => hset _ m

theorem keepsOnFailure_utime (hS : S.Guards view) (p : Path) (now : Bool) (mtime : Int64) :
    KeepsOnFailure view (S.utime p now mtime) := by
  refine keepsOnFailure_checked hS (.utimensat ..) (fun _ _ => ⟨(), rfl⟩) fun e => ?_
  dsimp only
  split
  · exact (keeps_emit view _).bind_onFailure fun _ => keepsOnFailure_utimeCoarse hS p now mtime
  · exact (keeps_fail view _).onFailure

end System

-- ============================================================== requests

/-- Whether a request is there only to find something out. -/
def Request.onlyAsks : Request → Bool
  | .stat .. | .statOutcome .. | .readlink .. | .readDir .. | .getxattr .. | .md5 ..
  | .systemParameter .. => true
  | .link .. | .symlink .. | .rename .. | .unlink .. | .remove .. | .chmod .. | .mkfifo ..
  | .utime .. | .mkdir .. | .mkdirs .. | .umask .. => false

namespace Files

variable {S : System σ} {view : σ → ω}

theorem keeps_perform (F : Files) (hS : S.Guards view) {r : Request} (hr : r.onlyAsks = true) :
    Op.Keeps view (F.perform S r) := by
  cases r with
  | stat follow p => exact System.keeps_stat hS follow p
  | statOutcome follow p => exact System.keeps_statOutcome hS follow p
  | readlink p => exact System.keeps_readlink hS p
  | readDir p query => exact System.keeps_readDir hS p query
  | getxattr follow p name room => exact System.keeps_getxattr hS follow p name _
  | md5 p room => exact System.keeps_md5 hS p _
  | systemParameter name => exact System.keeps_systemParameter hS name
  | link | symlink | rename | unlink | remove | chmod | mkfifo | utime | mkdir | mkdirs
  | umask => cases hr

theorem keepsOnFailure_perform (F : Files) (hS : S.Guards view) {r : Request}
    (hr : ∀ p mode, r ≠ .mkdirs p mode) : Op.KeepsOnFailure view (F.perform S r) := by
  cases r with
  | link old new => exact System.keepsOnFailure_accepted hS (.link old new)
  | symlink target p => exact System.keepsOnFailure_accepted hS (.symlink target p)
  | rename old new => exact System.keepsOnFailure_accepted hS (.rename old new)
  | chmod p mode => exact System.keepsOnFailure_accepted hS (.chmod p mode)
  | mkfifo p mode => exact System.keepsOnFailure_accepted hS (.mkfifo p mode)
  | unlink p => exact System.keepsOnFailure_unlink hS p
  | remove p => exact System.keepsOnFailure_remove hS p
  | mkdir p mode => exact System.keepsOnFailure_mkdir hS p mode
  | utime p now mtime => exact System.keepsOnFailure_utime hS p now mtime
  | mkdirs p mode => exact absurd rfl (hr p mode)
  | umask mask => exact nofun
  | stat | statOutcome | readlink | readDir | getxattr | md5 | systemParameter =>
      exact (F.keeps_perform hS rfl).onFailure

end Files

-- ================================================================ trials

namespace Trial

/-- The world of the session, and the calls on record that took effect. -/
def effects (r : Recorded (Scripted Session)) : World × List Exchange :=
  (r.state.state.world, r.exchanges.filter Exchange.takesEffect)

/-- Faults and prescribed replies, whatever they are, change nothing by
themselves. -/
theorem guards_effects (t : Trial) : t.system.Guards effects :=
  ((Session.guards_world.disguised t.disguise).faulty).recorded

/-- A request that fails leaves the world as it was, the mask with it, and
so does one that only asks, whatever it comes to; none of the calls made for
it took effect. Only the creation of directories all the way down is not
like that. -/
theorem failure_leaves_world (F : Files) (session : Session) {t : Trial}
    (ht : ∀ p mode, t.request ≠ .mkdirs p mode)
    (hreport : t.request.onlyAsks = true ∨ ∃ f, (t.report F session).result = .error f) :
    (t.report F session).session.world = session.world
      ∧ ∀ x ∈ (t.report F session).exchanges, x.takesEffect = false := by
  have hkeeps : effects ((F.perform t.system t.request).run ⟨[], ⟨t.script, session⟩⟩).state
      = effects ⟨[], ⟨t.script, session⟩⟩ := by
    rcases hreport with hask | ⟨f, hf⟩
    · exact F.keeps_perform t.guards_effects hask _
    · exact F.keepsOnFailure_perform t.guards_effects ht _ f hf
  obtain ⟨hworld, hexchanges⟩ := Prod.mk.inj hkeeps
  refine ⟨hworld, fun x hx => ?_⟩
  have hnone : ¬ x.takesEffect = true := List.filter_eq_nil_iff.1 hexchanges x hx
  exact Bool.eq_false_iff.2 hnone

/-- Times that are to be set where the newer call is missing and the older
one is refused in the end: four calls, and nothing changed. -/
theorem failure_leaves_world_utime :
    let t : Trial :=
      { request := .utime [0x66] false 1000
        script := [⟨.utimensat, some .eintr⟩, ⟨.utimensat, some .enosys⟩,
          ⟨.utime, some .eacces⟩] }
    let s : Session :=
      { world :=
          { nodes := #[⟨.directory { parent := 0, entries := [([0x66], 1)] }, 0o755, true, [],
                {}, {}, {}⟩,
              ⟨.regular [], 0o644, true, [], {}, {}, {}⟩]
            cwd := 0, mask := 0o022, now := {} } }
    (∀ p mode, t.request ≠ .mkdirs p mode)
      ∧ errno? ((t.report {} s).result.mapError Failure.errno) = some .eacces
      ∧ (t.report {} s).exchanges.length = 4
      ∧ (t.report {} s).session.world = s.world
      ∧ ∀ x ∈ (t.report {} s).exchanges, x.takesEffect = false := by
  intro t s
  have hcode : errno? ((t.report {} s).result.mapError Failure.errno) = some .eacces := by
    decide +kernel
  have hfails : ∃ f, (t.report {} s).result = .error f := by
    cases hr : (t.report {} s).result with
    | ok u =>
        rw [hr] at hcode
        cases hcode
    | error f => exact ⟨f, rfl⟩
  exact ⟨nofun, hcode, by decide +kernel, failure_leaves_world {} s nofun (Or.inr hfails)⟩

end Trial
end PosixFiles
