/-
Deletions that report success, and what is left at the path.

Deleting counts it as success that there is nothing to delete. Whoever
takes success to mean that the path leads to nothing any more is right, but
for one kind of path: with a slash after a link the system refuses to
delete the link, in the words in which it says that a component is no
directory, and nothing is deleted (`remove_leaves_nothing`). If the link
leads to a directory, that is what the path goes on leading to
(`remove_leaves_target_of_link`).
-/
import PosixFiles.Proofs.Operation.Session
import PosixFiles.Proofs.World.Deletion

namespace PosixFiles

namespace System

/-- A deletion succeeds if something is deleted, and where the refusal
means that there is nothing. -/
theorem run_remove {p : Path} (hnul : p.hasNul = false) (s : Session) :
    let o := (Session.system.remove p).run s
    match s.world.remove p with
    | .ok w => o.result = .ok true ∧ o.state = { s with world := w }
    | .error e =>
        o.state = s ∧ o.result =
          if e = .noEntry ∨ e = .notDirectory then .ok false
          else .error (.ofErrno (.path p) e.errno) := by
  intro o
  have ho : o = (deleted p (fun e => e = .enoent || e = .enotdir)
      (s.act (·.remove p)).1).run (s.act (·.remove p)).2 := by
    show (Session.system.remove p).run s = _
    unfold remove
    rw [Op.requireNoNul_bind _ (by simp [hnul]), Op.run_persist_bind, persist_session]
    rfl
  rw [ho]
  unfold Session.act
  dsimp only
  cases s.world.remove p with
  | ok w => exact ⟨rfl, rfl⟩
  | error e =>
      have habsorbed : (decide (e.errno = .enoent) || decide (e.errno = .enotdir)) = true
          ↔ e = .noEntry ∨ e = .notDirectory := by
        rw [Bool.or_eq_true, decide_eq_true_iff, decide_eq_true_iff,
          Refusal.errno_eq_enoent_iff, Refusal.errno_eq_enotdir_iff]
      dsimp only [deleted]
      by_cases he : e = .noEntry ∨ e = .notDirectory
      · rw [if_pos (habsorbed.2 he), if_pos he]
        exact ⟨rfl, rfl⟩
      · rw [if_neg (mt habsorbed.1 he), if_neg he]
        exact ⟨rfl, rfl⟩

/-- After a deletion that reports success a look at the path finds nothing,
whether it follows links or not, unless the path has a slash after a link:
then nothing has been done. -/
theorem remove_leaves_nothing (p : Path) (s : Session) :
    let o := (Session.system.remove p).run s
    (∀ b, o.result = .ok b →
        (b = false ∧ o.state = s ∧ s.world.EndsAtLink p)
          ∨ ∃ e, (e = .enoent ∨ e = .enotdir) ∧ ∀ follow,
            ((Session.system.stat follow p).run o.state).result
              = .error (.ofErrno (.path p) e))
      ∧ (p.hasNul = false → s.world.EndsAtLink p → o.result = .ok false ∧ o.state = s) := by
  intro o
  have hrun : p.hasNul = false → _ := fun hnul => run_remove hnul s
  refine ⟨fun b hb => ?_, fun hnul hlink => ?_⟩
  · have hnul : p.hasNul = false := by
      cases h : p.hasNul with
      | false => rfl
      | true =>
          have ho : o.result = .error ⟨.path p, .nulInPath⟩ := by
            show ((Session.system.remove p).run s).result = _
            unfold remove Op.requireNoNul
            rw [if_pos (by simp [h]), Op.fail_bind]
            rfl
          rw [ho] at hb
          cases hb
    have hdone := hrun hnul
    cases hremove : s.world.remove p with
    | ok w =>
        rw [hremove] at hdone
        obtain ⟨-, hstate⟩ := hdone
        refine Or.inr ⟨.enoent, Or.inl rfl, fun follow => ?_⟩
        have hw : o.state.world = w := congrArg Session.world hstate
        refine run_stat_of_file_error (e := .noEntry) hnul ?_
        rw [hw]
        exact World.file_of_remove_ok hremove follow
    | error e =>
        rw [hremove] at hdone
        obtain ⟨hstate, hresult⟩ := hdone
        by_cases he : e = .noEntry ∨ e = .notDirectory
        · rw [if_pos he] at hresult
          cases hb.symm.trans hresult
          rcases World.file_of_remove_error hremove he with hfile | ⟨-, hlink⟩
          · refine Or.inr ⟨e.errno, ?_, fun follow => run_stat_of_file_error hnul ?_⟩
            · exact he.imp e.errno_eq_enoent_iff.2 e.errno_eq_enotdir_iff.2
            · have hw : o.state.world = s.world := congrArg Session.world hstate
              rw [hw]
              exact hfile follow
          · exact Or.inl ⟨rfl, hstate, hlink⟩
        · rw [if_neg he] at hresult
          cases hb.symm.trans hresult
  · have hdone := hrun hnul
    rw [World.remove_of_endsAtLink hlink] at hdone
    exact ⟨hdone.2, hdone.1⟩

/-- An empty directory is deleted by a path with a slash at its end. -/
theorem remove_leaves_nothing_of_directory :
    let s : Session :=
      { world :=
          { nodes := #[⟨.directory { parent := 0, entries := [([0x64], 1)] }, 0o755, true, [],
                {}, {}, {}⟩,
              ⟨.directory { parent := 0 }, 0o755, true, [], {}, {}, {}⟩]
            cwd := 0, mask := 0o022, now := {} } }
    let p : Path := [0x64, 0x2f]
    let o := (Session.system.remove p).run s
    o.result.toOption = some true
      ∧ ((Session.system.stat false p).run o.state).result.toOption = none
      ∧ (∀ b, o.result = .ok b →
          (b = false ∧ o.state = s ∧ s.world.EndsAtLink p)
            ∨ ∃ e, (e = .enoent ∨ e = .enotdir) ∧ ∀ follow,
              ((Session.system.stat follow p).run o.state).result
                = .error (.ofErrno (.path p) e))
      ∧ (p.hasNul = false → s.world.EndsAtLink p → o.result = .ok false ∧ o.state = s) :=
  ⟨by decide +kernel, by decide +kernel, remove_leaves_nothing _ _⟩

/-- Where a link leads to a directory, deleting the link by a path with a
slash at its end is said to have found nothing, and a look at the path
finds the directory. -/
theorem remove_leaves_target_of_link :
    let s : Session :=
      { world :=
          { nodes := #[⟨.directory { parent := 0, entries := [([0x64], 1), ([0x6c], 2)] },
                0o755, true, [], {}, {}, {}⟩,
              ⟨.directory { parent := 0 }, 0o755, true, [], {}, {}, {}⟩,
              ⟨.symlink ⟨[0x64], by decide, by decide⟩, 0o777, true, [], {}, {}, {}⟩]
            cwd := 0, mask := 0o022, now := {} } }
    let p : Path := [0x6c, 0x2f]
    let o := (Session.system.remove p).run s
    o.result.toOption = some false
      ∧ (((Session.system.stat false p).run o.state).result.map Status.isDirectory).toOption
        = some true :=
  ⟨by decide +kernel, by decide +kernel⟩

end System
end PosixFiles
