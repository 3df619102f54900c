/-
Operations in a session that nothing disturbs.

A session interrupts no call, so what an operation repeats is made once.
Its codes tell the refusals that they report, and a path that leads to
nothing has no status.
-/
import PosixFiles.Operation.Entry
import PosixFiles.Proofs.Operation.Run
import PosixFiles.Session

namespace PosixFiles

/-- The code of a refusal tells whether something exists. -/
theorem Refusal.errno_eq_eexist_iff (r : Refusal) : r.errno = .eexist ↔ r = .exists := by
  cases r <;> decide

theorem Refusal.errno_eq_enoent_iff (r : Refusal) : r.errno = .enoent ↔ r = .noEntry := by
  cases r <;> decide

theorem Refusal.errno_eq_enotdir_iff (r : Refusal) : r.errno = .enotdir ↔ r = .notDirectory := by
  cases r <;> decide

namespace Session

/-- A change that succeeds is that of the world. -/
theorem exists_of_act_ok {f : World → Except Refusal World} {s : Session} {u : Unit}
    (h : (s.act f).1 = .ok u) :
    ∃ w, f s.world = .ok w ∧ (s.act f).2 = { s with world := w } := by
  unfold act at h ⊢
  cases hw : f s.world with
  | error e =>
      rw [hw] at h
      cases h
  | ok w => exact ⟨w, rfl, rfl⟩

/-- A change that is refused is none. -/
theorem eq_of_act_error {f : World → Except Refusal World} {s : Session} {e : Errno}
    (h : (s.act f).1 = .error e) : (s.act f).2 = s := by
  unfold act at h ⊢
  cases hw : f s.world with
  | error r => rfl
  | ok w =>
      rw [hw] at h
      cases h

/-- An answer that is reported is the world's. -/
theorem ok_of_reported {α : Type} {x : Except Refusal α} {a : α}
    (h : reported x = .ok a) : x = .ok a := by
  cases x with
  | error e => cases h
  | ok b =>
      cases h
      rfl

end Session

namespace System

/-- A session is never interrupted, so it is asked once. -/
theorem persist_session (c : Call) (s : Session) :
    Session.system.persist c s = s.call c :=
  Session.system.persist_eq_call (Session.errno?_call_ne c s (.inl rfl))

/-- The status of a path is that of the file it leads to. -/
theorem run_stat_of_file_error {p : Path} (hnul : p.hasNul = false) {follow : Bool}
    {s : Session} {e : Refusal} (h : s.world.file follow p = .error e) :
    ((Session.system.stat follow p).run s).result = .error (.ofErrno (.path p) e.errno) := by
  have hstatus : Session.statusFrom s.world.cwd follow p s.world = .error e := by
    show s.world.file follow p >>= _ = _
    rw [h]
    rfl
  unfold stat
  rw [Op.requireNoNul_bind _ (by simp [hnul]), Op.run_persist_bind, persist_session]
  show ((Op.accept (.path p)
    (Session.reported (Session.statusFrom s.world.cwd follow p s.world))).run s).result = _
  rw [hstatus]
  rfl

end System
end PosixFiles
