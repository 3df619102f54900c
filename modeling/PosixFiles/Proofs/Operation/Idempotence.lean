/-
Operations that tell by a truth value whether they did anything.

Deleting a file, deleting a file or an empty directory, and creating a
directory each try one change of the world, and take some refusals for
success (`Attempts`). Such an operation tells the truth: it reports having
done something just if the world has changed. And it is idempotent, if a
change that was made is refused from then on in a way that is taken for
success (`Attempts.truthful`). Whether the world does so is a matter of
where the same path leads after the change.

For these three it does. So they tell the truth and may be repeated at will,
and each changes one entry of one directory at most
(`truth_values_hold`).
-/
import PosixFiles.Proofs.Operation.Deletion
import PosixFiles.Proofs.Operation.Tagging
import PosixFiles.Proofs.World.SingleEntry

namespace PosixFiles

-- ============================================================== attempts

/-- An operation in a session that tries one change of the world, at a path,
and takes some refusals for success. -/
def Attempts (p : Path) (op : Op Session Bool) (change : World → Except Refusal World)
    (absorbs : Refusal → Prop) [DecidablePred absorbs] : Prop :=
  ∀ s : Session,
    match change s.world with
    | .ok w => (op.run s).result = .ok true ∧ (op.run s).state = { s with world := w }
    | .error e =>
        (op.run s).state = s ∧ (op.run s).result =
          if absorbs e then .ok false else .error (.ofErrno (.path p) e.errno)

/-- An operation whose truth value, if it succeeds, tells whether it changed
anything. What it changes is the world, and in the way that `Made` says; made
again at once it succeeds, and changes nothing. -/
structure Truthful (op : Op Session Bool) (Made : World → World → Prop) (s : Session) :
    Prop where
  state_eq : ∀ b, (op.run s).result = .ok b →
    (op.run s).state = { s with world := (op.run s).state.world }
  eq_true_iff : ∀ b, (op.run s).result = .ok b →
    (b = true ↔ (op.run s).state.world ≠ s.world)
  made : (op.run s).result = .ok true → Made s.world (op.run s).state.world
  again : ∀ b, (op.run s).result = .ok b →
    (op.run (op.run s).state).result = .ok false
      ∧ (op.run (op.run s).state).state = (op.run s).state

section Attempting

variable {op : Op Session Bool} {Made : World → World → Prop} {s : Session}

/-- Nothing is told by an operation that fails. -/
theorem Truthful.of_error {f : Failure} (h : (op.run s).result = .error f) :
    Truthful op Made s := by
  have hne : ∀ b, (op.run s).result ≠ .ok b := by
    intro b hb
    rw [h] at hb
    cases hb
  exact ⟨fun b hb => absurd hb (hne b), fun b hb => absurd hb (hne b),
    fun hb => absurd hb (hne true), fun b hb => absurd hb (hne b)⟩

/-- An attempt tells the truth and may be repeated, if a change that was made
is refused afterwards in a way that is taken for success. -/
theorem Attempts.truthful {p : Path} {change : World → Except Refusal World}
    {absorbs : Refusal → Prop} [DecidablePred absorbs] (h : Attempts p op change absorbs)
    (hmade : ∀ {w}, change s.world = .ok w → Made s.world w ∧ w ≠ s.world)
    (hagain : ∀ {w}, change s.world = .ok w → ∃ e, change w = .error e ∧ absorbs e) :
    Truthful op Made s := by
  have hrun := h s
  cases hchange : change s.world with
  | ok w =>
      rw [hchange] at hrun
      obtain ⟨hresult, hstate⟩ := hrun
      obtain ⟨hw, hne⟩ := hmade hchange
      refine ⟨fun b _ => ?_, fun b hb => ?_, fun _ => ?_, fun b _ => ?_⟩
      · rw [hstate]
      · cases hresult.symm.trans hb
        rw [hstate]
        exact iff_of_true rfl hne
      · rw [hstate]
        exact hw
      · rw [hstate]
        obtain ⟨e, he, habsorbed⟩ := hagain hchange
        have hrun' := h { s with world := w }
        dsimp only at hrun'
        rw [he] at hrun'
        dsimp only at hrun'
        rw [if_pos habsorbed] at hrun'
        exact hrun'.symm
  | error e =>
      rw [hchange] at hrun
      obtain ⟨hstate, hresult⟩ := hrun
      by_cases habsorbed : absorbs e
      · -- nothing was done, so the second run is the first
        rw [if_pos habsorbed] at hresult
        refine ⟨fun b _ => ?_, fun b hb => ?_, fun hb => ?_, fun b _ => ?_⟩
        · rw [hstate]
        · cases hresult.symm.trans hb
          rw [hstate]
          exact iff_of_false Bool.false_ne_true (not_not_intro rfl)
        · cases hresult.symm.trans hb
        · rw [hstate]
          exact ⟨hresult, hstate⟩
      · rw [if_neg habsorbed] at hresult
        exact .of_error hresult

end Attempting

namespace System

variable {p : Path} {mode : UInt32}

-- ======================================================= the operations

theorem attempts_remove (hnul : p.hasNul = false) :
    Attempts p (Session.system.remove p) (·.remove p)
      fun e => e = .noEntry ∨ e = .notDirectory :=
  run_remove hnul

theorem attempts_unlink (hnul : p.hasNul = false) :
    Attempts p (Session.system.unlink p) (·.unlink p) (· = .noEntry) := by
  intro s
  dsimp only
  have hcall : s.call (.unlink p) = s.act (·.unlink p) := rfl
  unfold unlink
  rw [Op.requireNoNul_bind _ (by simp [hnul]), Op.run_persist_bind, persist_session, hcall,
    Session.act]
  cases s.world.unlink p with
  | ok w => exact ⟨rfl, rfl⟩
  | error e =>
      dsimp only [deleted]
      by_cases he : e = .noEntry
      · rw [if_pos (decide_eq_true (e.errno_eq_enoent_iff.2 he)), if_pos he]
        exact ⟨rfl, rfl⟩
      · rw [if_neg (by simpa using mt e.errno_eq_enoent_iff.1 he), if_neg he]
        exact ⟨rfl, rfl⟩

theorem attempts_mkdir (hnul : p.hasNul = false) :
    Attempts p (Session.system.mkdir p mode) (·.mkdir p mode) (· = .exists) := by
  intro s
  dsimp only
  have hcall : s.call (.mkdir p mode) = s.act (·.mkdir p mode) := rfl
  unfold mkdir
  rw [Op.requireNoNul_bind _ (by simp [hnul]), Op.run_persist_bind, persist_session, hcall,
    Session.act]
  cases s.world.mkdir p mode with
  | ok w => exact ⟨rfl, rfl⟩
  | error e =>
      dsimp only
      by_cases he : e = .exists
      · rw [if_pos (e.errno_eq_eexist_iff.2 he), if_pos he]
        exact ⟨rfl, rfl⟩
      · rw [if_neg (mt e.errno_eq_eexist_iff.1 he), if_neg he]
        exact ⟨rfl, rfl⟩

/-- A path with a NUL byte is given to none of them. -/
theorem run_of_hasNul (hnul : p.hasNul = true) (s : Session) {rest : Unit → Op Session Bool} :
    ((Op.requireNoNul (.path p) [p] >>= rest).run s).result = .error ⟨.path p, .nulInPath⟩ := by
  rw [Op.requireNoNul_bind_of_hasNul _ (by simp [hnul])]
  rfl

theorem truthful_unlink (p : Path) (s : Session) :
    Truthful (Session.system.unlink p)
      (fun w w' => ∃ dir n i, World.LosesEntry p w w' dir n i) s := by
  cases hnul : p.hasNul with
  | true => exact .of_error (run_of_hasNul hnul s)
  | false =>
      refine (attempts_unlink hnul).truthful (fun {w} hw => ?_)
        fun {w} hw => ⟨_, World.unlink_again hw, rfl⟩
      obtain ⟨dir, n, i, h⟩ := World.losesEntry_of_remove (World.remove_of_unlink_ok hw)
      exact ⟨⟨dir, n, i, h⟩, h.ne⟩

theorem truthful_remove (p : Path) (s : Session) :
    Truthful (Session.system.remove p)
      (fun w w' => ∃ dir n i, World.LosesEntry p w w' dir n i) s := by
  cases hnul : p.hasNul with
  | true => exact .of_error (run_of_hasNul hnul s)
  | false =>
      refine (attempts_remove hnul).truthful (fun {w} hw => ?_)
        fun {w} hw => ⟨_, World.remove_again hw, Or.inl rfl⟩
      obtain ⟨dir, n, i, h⟩ := World.losesEntry_of_remove hw
      exact ⟨⟨dir, n, i, h⟩, h.ne⟩

theorem truthful_mkdir (p : Path) (mode : UInt32) {s : Session}
    (hroot : s.world.isDirectory World.root = true)
    (hcwd : s.world.isDirectory s.world.cwd = true) :
    Truthful (Session.system.mkdir p mode)
      (fun w w' => ∃ dir n, World.GetsDirectory p mode w w' dir n) s := by
  cases hnul : p.hasNul with
  | true => exact .of_error (run_of_hasNul hnul s)
  | false =>
      refine (attempts_mkdir hnul).truthful (fun {w} hw => ?_)
        fun {w} hw => ⟨_, World.mkdir_again hroot hcwd hw, rfl⟩
      obtain ⟨dir, n, h⟩ := World.getsDirectory_of_mkdir hroot hcwd hw
      exact ⟨⟨dir, n, h⟩, h.ne⟩

/-- Whatever `unlink` succeeds with, a look at the path that does not follow
links finds nothing then, and the failure is kept as data. -/
theorem statOutcome_of_unlink_ok {s : Session} {b : Bool}
    (h : ((Session.system.unlink p).run s).result = .ok b) :
    ((Session.system.statOutcome false p).run ((Session.system.unlink p).run s).state).result
      = .ok (.error .notFound .enoent) := by
  cases hnul : p.hasNul with
  | true => cases (run_of_hasNul hnul s).symm.trans h
  | false =>
      have hfile : ((Session.system.unlink p).run s).state.world.file false p
          = .error .noEntry := by
        have hrun := attempts_unlink hnul s
        dsimp only at hrun
        cases hunlink : s.world.unlink p with
        | ok w =>
            rw [hunlink] at hrun
            rw [hrun.2]
            exact World.file_of_remove_ok (World.remove_of_unlink_ok hunlink) false
        | error e =>
            rw [hunlink] at hrun
            obtain ⟨hstate, hresult⟩ := hrun
            rw [hstate]
            by_cases he : e = .noEntry
            · subst he
              exact World.file_of_unlink_noEntry hunlink false
            · rw [if_neg he] at hresult
              cases hresult.symm.trans h
      rw [(run_statOutcome _ _ _ _).1, run_stat_of_file_error hnul hfile]
      exact StatOutcome.ofResult_of_ordinary (by decide) (.path p)

/-- The truth values of the three operations tell whether the world has
changed. Where it has, a deletion took out one entry and a creation put in
one, with an empty directory for it; everything else is as before. Made again
at once, the same operation succeeds, reports that there was nothing to do,
and changes nothing, although its path may lead another way by then. After a
file was deleted, or was not there to be deleted, its status is that the path
does not exist.

That a creation puts in an entry takes a world whose root is a directory, and
where the process is in one. -/
theorem truth_values_hold (p : Path) (mode : UInt32) (s : Session) :
    Truthful (Session.system.unlink p)
        (fun w w' => ∃ dir n i, World.LosesEntry p w w' dir n i) s
      ∧ Truthful (Session.system.remove p)
          (fun w w' => ∃ dir n i, World.LosesEntry p w w' dir n i) s
      ∧ (s.world.isDirectory World.root = true → s.world.isDirectory s.world.cwd = true →
          Truthful (Session.system.mkdir p mode)
            (fun w w' => ∃ dir n, World.GetsDirectory p mode w w' dir n) s)
      ∧ ∀ b, ((Session.system.unlink p).run s).result = .ok b →
          ((Session.system.statOutcome false p).run
              ((Session.system.unlink p).run s).state).result
            = .ok (.error .notFound .enoent) :=
  ⟨truthful_unlink p s, truthful_remove p s, truthful_mkdir p mode,
    fun _ => statOutcome_of_unlink_ok⟩

/-- The deletion of the directory `d` by the path `l/../d`, where `l` is a link
to `d` itself: the first deletion takes away what the path goes through, and
the second one fails to get through and takes that for success. -/
theorem truth_values_hold_through_itself :
    let s : Session :=
      { world :=
          { nodes := #[⟨.directory { parent := 0, entries := [([0x64], 1), ([0x6c], 2)] },
                0o755, true, [], {}, {}, {}⟩,
              ⟨.directory { parent := 0 }, 0o755, true, [], {}, {}, {}⟩,
              ⟨.symlink ⟨[0x64], by decide, by decide⟩, 0o777, true, [], {}, {}, {}⟩]
            cwd := 0, mask := 0o022, now := {} } }
    let p : Path := [0x6c, 0x2f, 0x2e, 0x2e, 0x2f, 0x64]
    let o := (Session.system.remove p).run s
    o.result.toOption = some true
      ∧ ((Session.system.remove p).run o.state).result.toOption = some false
      ∧ s.world.isDirectory World.root = true
      ∧ s.world.isDirectory s.world.cwd = true
      ∧ Truthful (Session.system.unlink p)
          (fun w w' => ∃ dir n i, World.LosesEntry p w w' dir n i) s
      ∧ Truthful (Session.system.remove p)
          (fun w w' => ∃ dir n i, World.LosesEntry p w w' dir n i) s
      ∧ Truthful (Session.system.mkdir p 0o777)
          (fun w w' => ∃ dir n, World.GetsDirectory p 0o777 w w' dir n) s
      ∧ ∀ b, ((Session.system.unlink p).run s).result = .ok b →
          ((Session.system.statOutcome false p).run
              ((Session.system.unlink p).run s).state).result
            = .ok (.error .notFound .enoent) := by
  intro s p o
  have hroot : s.world.isDirectory World.root = true := by decide
  obtain ⟨hunlink, hremove, hmkdir, hstat⟩ := truth_values_hold p 0o777 s
  exact ⟨by decide +kernel, by decide +kernel, hroot, hroot, hunlink, hremove,
    hmkdir hroot hroot, hstat⟩

end System
end PosixFiles
