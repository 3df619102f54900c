/-
Arguments that hold a NUL.

A NUL would end the byte string that the system gets to see, and the call
would be about something else. So no operation that takes paths hands one
over: it fails before its first call, with a failure that nothing else
leads to (`Files.nul_is_refused`). Only the lack of any room is noticed
before.

That nothing else leads to that failure is proved by the way operations
are put together. `Op.BlamesNoNul` says of an operation that none of its
failures is of that kind; calls, events and codes are harmless, and what
is made up of harmless steps is harmless. So the check of the arguments,
which stands at the front of every operation, is where it comes from.
-/
import PosixFiles.Proofs.Listing.Stream
import PosixFiles.Proofs.Operation.Refusal
import PosixFiles.Proofs.Operation.Ruling
import PosixFiles.System.Faulty

namespace PosixFiles

-- ============================================================== failures

/-- A failure shows that an argument holds a NUL: it is an invalid
argument, with a wording of its own. -/
structure Failure.ShowsNul (f : Failure) (subject : Subject) : Prop where
  kind_eq : f.kind = .invalidArgument
  errno_eq : f.errno = .einval
  description_eq : f.description = "path contains NUL"
  isUnexpected_eq : f.isUnexpected = false
  subject_eq : f.subject = subject

/-- There is one such failure for every subject: the code alone is of
another kind, and a file name that is read whole has other wording. -/
theorem Failure.showsNul_iff {f : Failure} {subject : Subject} :
    f.ShowsNul subject ↔ f = ⟨subject, .nulInPath⟩ := by
  constructor
  · rintro ⟨hkind, herrno, hdescription, -, rfl⟩
    obtain ⟨subject, cause⟩ := f
    change cause.kind = _ at hkind
    change cause.code = _ at herrno
    change cause.description = _ at hdescription
    cases cause with
    | errno e =>
        have he : e = .einval := herrno
        subst he
        exact absurd hkind (by decide)
    | nulInPath => rfl
    | nulInFileName => exact absurd hdescription (by decide)
    | invalidText => exact absurd herrno (by decide)
  · rintro rfl
    exact ⟨rfl, rfl, rfl, rfl, rfl⟩

namespace Request

/-- What a bad argument is reported against, by the requests that take
paths. -/
def subject? : Request → Option Subject
  | .stat _ p | .statOutcome _ p | .readlink p | .unlink p | .remove p | .chmod p _
  | .mkfifo p _ | .utime p _ _ | .mkdir p _ | .mkdirs p _ | .readDir p _ | .md5 p _
  | .getxattr _ p _ _ => some (.path p)
  | .link _ new | .symlink _ new => some (.path new)
  | .rename old new => some (.renaming old new)
  | .umask _ | .systemParameter _ => none

/-- Some argument has a NUL somewhere. -/
def HoldsNul (r : Request) : Prop :=
  ∃ a ∈ r.arguments, Bytes.nul ∈ a

theorem holdsNul_iff {r : Request} : r.HoldsNul ↔ r.arguments.any Path.hasNul = true := by
  simp only [HoldsNul, List.any_eq_true, Path.hasNul, List.contains_iff_mem]

instance (r : Request) : Decidable r.HoldsNul :=
  decidable_of_iff _ holdsNul_iff.symm

theorem isPresentable_iff {r : Request} :
    r.isPresentable = true ↔ ¬ r.HoldsNul ∧ r.room? ≠ some 0 := by
  rw [isPresentable, Bool.and_eq_true, Bool.not_eq_true', bne_iff_ne, holdsNul_iff,
    Bool.not_eq_true]

end Request

-- ============================================================= operations

namespace Op

variable {σ α β : Type}

/-- No failure of the operation says that an argument holds a NUL. -/
def BlamesNoNul (x : Op σ α) : Prop :=
  ∀ s f, (x.run s).result = .error f → f.cause ≠ .nulInPath

theorem blamesNoNul_of_ok {x : Op σ α} (h : ∀ s, ∃ a, (x.run s).result = .ok a) :
    BlamesNoNul x := by
  intro s f hf
  obtain ⟨a, ha⟩ := h s
  rw [ha] at hf
  cases hf

theorem blamesNoNul_pure (a : α) : BlamesNoNul (pure a : Op σ α) :=
  blamesNoNul_of_ok fun _ => ⟨a, rfl⟩

theorem blamesNoNul_emit (e : Event) : BlamesNoNul (emit e : Op σ Unit) :=
  blamesNoNul_of_ok fun _ => ⟨(), rfl⟩

theorem blamesNoNul_fail {f : Failure} (hf : f.cause ≠ .nulInPath) :
    BlamesNoNul (fail f : Op σ α) := by
  intro s g hg
  cases hg
  exact hf

/-- A code is not a NUL. -/
theorem blamesNoNul_code (subject : Subject) (e : Errno) :
    BlamesNoNul (fail (.ofErrno subject e) : Op σ α) :=
  blamesNoNul_fail nofun

theorem blamesNoNul_accept (subject : Subject) (r : Except Errno α) :
    BlamesNoNul (accept subject r : Op σ α) := by
  cases r with
  | ok a => exact blamesNoNul_pure a
  | error e => exact blamesNoNul_code subject e

theorem blamesNoNul_closed (subject : Subject) (r : Except Errno Unit) :
    BlamesNoNul (closed subject r : Op σ Unit) := by
  cases r with
  | ok u => exact blamesNoNul_pure u
  | error e =>
      unfold closed
      dsimp only
      split
      · exact blamesNoNul_pure ()
      · exact blamesNoNul_code subject e

theorem BlamesNoNul.bind {x : Op σ α} {f : α → Op σ β} (hx : BlamesNoNul x)
    (hf : ∀ a, BlamesNoNul (f a)) : BlamesNoNul (x >>= f) := by
  intro s g hg
  rw [run_bind] at hg
  cases hresult : (x.run s).result with
  | ok a =>
      rw [hresult] at hg
      exact hf a _ g hg
  | error e =>
      rw [hresult] at hg
      cases hg
      exact hx s _ hresult

/-- Nor does it matter what a reply is accepted for. -/
theorem BlamesNoNul.accepted {x : Op σ (Except Errno α)} {f : α → Op σ β}
    (hx : BlamesNoNul x) (subject : Subject) (hf : ∀ a, BlamesNoNul (f a)) :
    BlamesNoNul (x >>= fun r => accept subject r >>= f) :=
  hx.bind fun r => (blamesNoNul_accept subject r).bind hf

theorem blamesNoNul_persist (S : System σ) (c : Call) : BlamesNoNul (persist S c) :=
  blamesNoNul_of_ok fun _ => ⟨_, rfl⟩

theorem blamesNoNul_issue (S : System σ) (c : Call) : BlamesNoNul (issue S c) :=
  blamesNoNul_of_ok fun _ => ⟨_, rfl⟩

end Op

namespace System

open Op

variable {σ : Type} {S : System σ} {p : Path}

-- =============================================================== listing

theorem blamesNoNul_typeByStatus (dir : Handle) (n : Name) :
    BlamesNoNul (typeByStatus S dir n) := by
  refine (blamesNoNul_issue S _).bind fun r => ?_
  cases r with
  | ok st => exact blamesNoNul_pure _
  | error e => exact (blamesNoNul_emit _).bind fun _ => blamesNoNul_pure _

theorem blamesNoNul_typeOfEntry (dir : Handle) (e : StreamEntry) (followLinks : Bool) :
    BlamesNoNul (typeOfEntry S dir e followLinks) := by
  unfold typeOfEntry
  split
  · exact blamesNoNul_pure _
  split
  · exact blamesNoNul_pure _
  split
  · exact blamesNoNul_pure _
  split
  · exact blamesNoNul_typeByStatus dir e.name
  · exact blamesNoNul_pure _

theorem blamesNoNul_typedEntry (dir : Handle) (query : TypeQuery) (e : StreamEntry) :
    BlamesNoNul (typedEntry S dir query e) := by
  cases query with
  | none => exact blamesNoNul_pure _
  | ofEntry => exact (blamesNoNul_typeOfEntry dir e false).bind fun _ => blamesNoNul_pure _
  | ofTarget => exact (blamesNoNul_typeOfEntry dir e true).bind fun _ => blamesNoNul_pure _

theorem blamesNoNul_entriesFrom (dir : Handle) (query : TypeQuery) :
    BlamesNoNul (S.entriesFrom p dir query) := by
  intro s f hf
  change (S.entriesFrom p dir query s).result = .error f at hf
  fun_induction System.entriesFrom S p dir query s with
  | case1 s r hr => cases hf
  | case2 s r e hr hdots ih => exact ih hf
  | case3 s r e hr hdots typed g htyped =>
      cases hf
      exact blamesNoNul_typedEntry dir query e r.2 f htyped
  | case4 s r e hr hdots typed entry htyped rest ih =>
      cases hrest : rest.result with
      | ok entries =>
          rw [hrest] at hf
          cases hf
      | error g =>
          rw [hrest] at hf
          cases hf
          exact ih hrest
  | case5 s r e hr hp rest ih => exact ih hf
  | case6 s r e hr hp => exact blamesNoNul_code (.path p) e s f hf

theorem blamesNoNul_closeListing (dir : Handle) : BlamesNoNul (S.closeListing p dir) :=
  (blamesNoNul_issue S _).bind fun r => blamesNoNul_closed _ r

theorem blamesNoNul_entriesOf (dir : Handle) (query : TypeQuery) :
    BlamesNoNul (S.entriesOf p dir query) := by
  intro s f hf
  cases hread : (S.entriesFrom p dir query s).result with
  | error g =>
      rw [run_entriesOf_of_error S hread] at hf
      cases hf
      exact blamesNoNul_entriesFrom dir query s f hread
  | ok entries =>
      rw [run_entriesOf_of_ok S hread] at hf
      dsimp only at hf
      cases hclosed : ((S.closeListing p dir).run (S.entriesFrom p dir query s).state).result with
      | ok u =>
          rw [hclosed] at hf
          cases hf
      | error g =>
          rw [hclosed] at hf
          cases hf
          exact blamesNoNul_closeListing dir _ f hclosed

theorem blamesNoNul_readDir (query : TypeQuery) (hnul : [p].any Path.hasNul = false) :
    BlamesNoNul (S.readDir p query) := by
  unfold readDir
  rw [requireNoNul_bind _ hnul]
  exact (blamesNoNul_persist S _).accepted _ fun dir =>
    (blamesNoNul_entriesOf dir query).bind fun _ =>
      (blamesNoNul_emit _).bind fun _ => blamesNoNul_pure _

-- ========================================================== other requests

theorem blamesNoNul_closeRead (file : Handle) : BlamesNoNul (S.closeRead p file) :=
  (blamesNoNul_issue S _).bind fun r => blamesNoNul_closed _ r

theorem blamesNoNul_md5 {room : Nat} (hroom : room ≠ 0) (hnul : [p].any Path.hasNul = false) :
    BlamesNoNul (S.md5 p room) := by
  simp only [md5, if_neg hroom]
  rw [requireNoNul_bind _ hnul]
  refine (blamesNoNul_persist S _).accepted _ fun file =>
    (blamesNoNul_of_ok fun _ => ⟨_, rfl⟩).bind fun read => ?_
  cases read with
  | error e => exact (blamesNoNul_issue S _).bind fun _ => blamesNoNul_code _ e
  | ok ctx =>
      exact (blamesNoNul_closeRead file).bind fun _ =>
        (blamesNoNul_emit _).bind fun _ => blamesNoNul_pure _

theorem blamesNoNul_requireDirectory (s : Status) :
    BlamesNoNul (requireDirectory p s : Op σ Unit) := by
  unfold requireDirectory
  split
  · exact blamesNoNul_pure _
  · exact blamesNoNul_code _ _

theorem blamesNoNul_missingAncestors (ancestors found : List Path) :
    BlamesNoNul (S.missingAncestors ancestors found) := by
  induction ancestors generalizing found with
  | nil => exact blamesNoNul_pure _
  | cons a shorter ih =>
      refine (blamesNoNul_issue S _).bind fun r => ?_
      cases r with
      | ok st => exact blamesNoNul_pure _
      | error e =>
          dsimp only
          split
          · exact ih _
          · exact blamesNoNul_code _ e

theorem blamesNoNul_createAncestors (mode : UInt32) (missing : List Path) :
    BlamesNoNul (S.createAncestors mode missing) := by
  induction missing with
  | nil => exact blamesNoNul_pure _
  | cons a longer ih =>
      refine (blamesNoNul_issue S _).bind fun r => ?_
      cases r with
      | ok u => exact (blamesNoNul_emit _).bind fun _ => ih
      | error e =>
          dsimp only
          split
          · exact (blamesNoNul_emit _).bind fun _ => ih
          · exact (blamesNoNul_code _ e).bind fun _ => ih

theorem blamesNoNul_createTarget (mode : UInt32) : BlamesNoNul (S.createTarget p mode) := by
  refine (blamesNoNul_issue S _).bind fun r => ?_
  cases r with
  | ok u => exact blamesNoNul_emit _
  | error e =>
      dsimp only
      split
      · exact (blamesNoNul_issue S _).accepted _ blamesNoNul_requireDirectory
      · exact blamesNoNul_code _ e

theorem blamesNoNul_mkdirs (mode : UInt32) (hnul : [p].any Path.hasNul = false) :
    BlamesNoNul (S.mkdirs p mode) := by
  unfold mkdirs
  rw [requireNoNul_bind _ hnul]
  refine (blamesNoNul_issue S _).bind fun r => ?_
  cases r with
  | ok s => exact blamesNoNul_requireDirectory s
  | error e =>
      dsimp only
      split
      · exact (blamesNoNul_missingAncestors _ _).bind fun missing =>
          (blamesNoNul_createAncestors mode missing).bind fun _ => blamesNoNul_createTarget mode
      · exact blamesNoNul_code _ e

/-- The file of a parameter is named by whoever wrote this library, and a
NUL in the name is another failure. -/
theorem blamesNoNul_systemParameter (name : String) : BlamesNoNul (S.systemParameter name) := by
  unfold systemParameter
  cases Parameter.path? name with
  | none => exact blamesNoNul_code _ _
  | some q =>
      have hcontents : BlamesNoNul (S.contents (.named name) q) := by
        unfold contents
        split
        · rw [fail_bind]
          exact blamesNoNul_fail nofun
        · exact (blamesNoNul_persist S _).accepted _ fun _ =>
            (blamesNoNul_of_ok fun _ => ⟨_, rfl⟩).bind fun read =>
              (blamesNoNul_issue S _).bind fun _ => blamesNoNul_accept _ read
      refine hcontents.bind fun bytes => ?_
      cases bytes.toString? with
      | none => exact blamesNoNul_fail nofun
      | some text =>
          dsimp only
          cases Parameter.value? text with
          | none => exact blamesNoNul_code _ _
          | some v => exact blamesNoNul_pure v

end System

-- ============================================================== requests

namespace Files

variable {σ : Type} {S : System σ}

/-- Without any room there is nothing else to a request but to fail. -/
theorem perform_of_no_room (F : Files) {r : Request} {subject : Subject}
    (hsubject : r.subject? = some subject) (hroom : r.room? = some 0) :
    F.perform S r = Op.fail (.ofErrno subject .einval) := by
  cases r with
  | getxattr follow p name room =>
      cases hsubject
      have hzero : room.getD F.config.xattrBufferSize = 0 :=
        (F.room_eq_zero_iff room .xattrBufferSize).2 hroom
      simp only [perform, System.getxattr, if_pos hzero, Op.fail_bind]
  | md5 p room =>
      cases hsubject
      have hzero : room.getD F.config.digestChunkSize = 0 :=
        (F.room_eq_zero_iff room .digestChunkSize).2 hroom
      simp only [perform, System.md5, if_pos hzero, Op.fail_bind]
  | stat | statOutcome | link | symlink | readlink | rename | unlink | remove | chmod | mkfifo
  | utime | mkdir | mkdirs | umask | readDir | systemParameter => cases hroom

/-- With room, neither is there if an argument holds a NUL. -/
theorem perform_of_holdsNul (F : Files) {r : Request} {subject : Subject}
    (hsubject : r.subject? = some subject) (hroom : r.room? ≠ some 0) (hnul : r.HoldsNul) :
    F.perform S r = Op.fail ⟨subject, .nulInPath⟩ := by
  rw [Request.holdsNul_iff] at hnul
  cases r with
  | getxattr follow p name room =>
      cases hsubject
      have hpos : room.getD F.config.xattrBufferSize ≠ 0 :=
        mt (F.room_eq_zero_iff room .xattrBufferSize).1 hroom
      simp only [perform, System.getxattr, if_neg hpos]
      exact Op.requireNoNul_bind_of_hasNul _ hnul
  | md5 p room =>
      cases hsubject
      have hpos : room.getD F.config.digestChunkSize ≠ 0 :=
        mt (F.room_eq_zero_iff room .digestChunkSize).1 hroom
      simp only [perform, System.md5, if_neg hpos]
      exact Op.requireNoNul_bind_of_hasNul _ hnul
  | stat | statOutcome | link | symlink | readlink | rename | unlink | remove | chmod | mkfifo
  | utime | mkdir | mkdirs | readDir =>
      cases hsubject
      exact Op.requireNoNul_bind_of_hasNul _ hnul
  | umask | systemParameter => cases hsubject

/-- A request that takes no path blames none. -/
theorem blamesNoNul_of_no_subject (F : Files) {r : Request} (h : r.subject? = none) :
    Op.BlamesNoNul (F.perform S r) := by
  cases r with
  | umask mask => exact Op.blamesNoNul_of_ok fun _ => ⟨_, rfl⟩
  | systemParameter name => exact System.blamesNoNul_systemParameter name
  | stat | statOutcome | link | symlink | readlink | rename | unlink | remove | chmod | mkfifo
  | utime | mkdir | mkdirs | readDir | getxattr | md5 => cases h

/-- A request that can be put to the system fails for other reasons. -/
theorem blamesNoNul_of_presentable (F : Files) {r : Request} (hp : r.isPresentable = true) :
    Op.BlamesNoNul (F.perform S.recorded r) := by
  cases hruling : r.ruling? with
  | some R =>
      -- what a ruling turns into a failure is a code
      intro t f hf
      obtain ⟨es, -, hcourse, -⟩ := F.continues_perform (S := S) hruling hp t
      obtain ⟨-, e, -, -, -, rfl⟩ := hcourse.of_error hf
      exact nofun
  | none =>
      have hnul : r.arguments.any Path.hasNul = false :=
        Bool.not_eq_true _ ▸ mt Request.holdsNul_iff.2 (Request.isPresentable_iff.1 hp).1
      have hroom := (Request.isPresentable_iff.1 hp).2
      cases r with
      | mkdirs p mode => exact System.blamesNoNul_mkdirs mode hnul
      | readDir p query => exact System.blamesNoNul_readDir query hnul
      | md5 p room =>
          exact System.blamesNoNul_md5 (mt (F.room_eq_zero_iff room .digestChunkSize).1 hroom) hnul
      | umask | systemParameter => exact F.blamesNoNul_of_no_subject rfl
      | stat | statOutcome | link | symlink | readlink | rename | unlink | remove | chmod
      | mkfifo | utime | mkdir | getxattr => cases hruling

/-- A NUL never reaches the system. A request that takes paths and has a
NUL in one of its arguments makes no call, uses up no fault of the script
and changes nothing; it fails with a failure that shows the NUL. So it is
where there is no room for what is to be read, with or without a NUL, but
that is another failure. And a failure that shows a NUL, whatever it is
reported against, comes only from a request that holds one. -/
theorem nul_is_refused (F : Files) (S : System σ) (r : Request) (script : List Fault) (s : σ) :
    let o := (F.perform S.faulty.recorded r).run ⟨[], ⟨script, s⟩⟩
    (∀ subject, r.subject? = some subject → r.HoldsNul ∨ r.room? = some 0 →
        ∃ f, o = ⟨.error f, [], ⟨[], ⟨script, s⟩⟩⟩
          ∧ if r.room? = some 0 then f.kind = .io ∧ f.Reports subject .einval
            else f.ShowsNul subject)
      ∧ ∀ f subject, o.result = .error f → f.ShowsNul subject →
        r.subject? = some subject ∧ r.HoldsNul ∧ r.room? ≠ some 0 := by
  intro o
  refine ⟨fun subject hsubject hbad => ?_, fun f subject hf hshows => ?_⟩
  · by_cases hroom : r.room? = some 0
    · have hperform := F.perform_of_no_room (S := S.faulty.recorded) hsubject hroom
      refine ⟨.ofErrno subject .einval, congrArg (Op.run · _) hperform, ?_⟩
      rw [if_pos hroom]
      exact ⟨rfl, Failure.reports_ofErrno subject .einval⟩
    · have hnul : r.HoldsNul := hbad.resolve_right hroom
      have hperform := F.perform_of_holdsNul (S := S.faulty.recorded) hsubject hroom hnul
      refine ⟨⟨subject, .nulInPath⟩, congrArg (Op.run · _) hperform, ?_⟩
      rw [if_neg hroom]
      exact Failure.showsNul_iff.2 rfl
  · rw [Failure.showsNul_iff] at hshows
    cases hsubject : r.subject? with
    | none =>
        refine absurd ?_ (F.blamesNoNul_of_no_subject hsubject _ f hf)
        rw [hshows]
    | some against =>
        by_cases hroom : r.room? = some 0
        · have hperform := F.perform_of_no_room (S := S.faulty.recorded) hsubject hroom
          have hcode : o.result = .error (.ofErrno against .einval) :=
            congrArg (fun x => (Op.run x _).result) hperform
          rw [hf, hshows] at hcode
          cases hcode
        · by_cases hnul : r.HoldsNul
          · have hperform := F.perform_of_holdsNul (S := S.faulty.recorded) hsubject hroom hnul
            have hblames : o.result = .error ⟨against, .nulInPath⟩ :=
              congrArg (fun x => (Op.run x _).result) hperform
            rw [hf, hshows] at hblames
            cases hblames
            exact ⟨rfl, hnul, hroom⟩
          · refine absurd ?_
              (F.blamesNoNul_of_presentable (Request.isPresentable_iff.2 ⟨hnul, hroom⟩) _ f hf)
            rw [hshows]

/-- A renaming with a NUL inside the second path, a fault being set up for
the call that is not made. -/
theorem nul_is_refused_rename :
    let r : Request := .rename [0x61] [0x62, 0, 0x63]
    let subject : Subject := .renaming [0x61] [0x62, 0, 0x63]
    let script : List Fault := [⟨.rename, some .eperm⟩]
    let o := (perform {} System.prepared.faulty.recorded r).run ⟨[], ⟨script, []⟩⟩
    r.subject? = some subject ∧ (r.HoldsNul ∨ r.room? = some 0)
      ∧ (∃ f, o = ⟨.error f, [], ⟨[], ⟨script, []⟩⟩⟩
          ∧ if r.room? = some 0 then f.kind = .io ∧ f.Reports subject .einval
            else f.ShowsNul subject)
      ∧ o.result = .error ⟨subject, .nulInPath⟩
      ∧ Failure.ShowsNul ⟨subject, .nulInPath⟩ subject
      ∧ r.subject? = some subject ∧ r.HoldsNul ∧ r.room? ≠ some 0 := by
  intro r subject script o
  have hnul : r.HoldsNul := by decide
  obtain ⟨hrefused, honly⟩ := nul_is_refused {} System.prepared r script []
  exact ⟨rfl, Or.inl hnul, hrefused subject rfl (Or.inl hnul), rfl,
    Failure.showsNul_iff.2 rfl, honly _ subject rfl (Failure.showsNul_iff.2 rfl)⟩

/-- A digest of a path with a NUL, and no room to read: the lack of room
comes first. -/
example :
    ((perform {} System.prepared.faulty.recorded (.md5 [0x61, 0] (some 0))).run
      ⟨[], ⟨[], []⟩⟩).result = .error (.ofErrno (.path [0x61, 0]) .einval) := by
  rfl

end Files
end PosixFiles
