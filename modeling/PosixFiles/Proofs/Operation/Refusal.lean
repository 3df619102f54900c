/-
Requests that are refused for want of room.

Reading a file or an attribute into no room at all would only seem to
work: every file would seem empty, and of an attribute only the length
would come back. Both are refused before anything is called, and before
the arguments are looked at. With any room there is a call on record, or
an argument with a NUL that is a failure of another kind, so these
refusals can be told from everything else.
-/
import PosixFiles.Proofs.Digest.Reading
import PosixFiles.Proofs.Interruption.Attribute

namespace PosixFiles
namespace System

variable {σ : Type} {S : System σ}

/-- Being refused for want of room: nothing was called, and the argument
was not valid. -/
structure RefusedForRoom {α : Type} (p : Path) (o : Outcome (Recorded σ) α) : Prop where
  exchanges_eq : o.state.exchanges = []
  result_eq : o.result = .error (.ofErrno (.path p) .einval)

/-- What has a call on record was not refused. -/
theorem not_refused {α : Type} {p : Path} {o : Outcome (Recorded σ) α} {es : List Exchange}
    {x : Exchange} (h : o.state.exchanges = es ++ [x]) : ¬ RefusedForRoom p o := by
  intro hrefused
  rw [hrefused.exchanges_eq] at h
  cases es <;> cases h

/-- A digest is refused where there is no room to read, and only there. -/
theorem md5_refused_iff (p : Path) (room : Nat) (s : σ) :
    RefusedForRoom p ((S.recorded.md5 p room).run ⟨[], s⟩) ↔ room = 0 := by
  constructor
  · intro hrefused
    by_contra hroom
    cases hnul : p.hasNul with
    | true =>
        simp only [md5, if_neg hroom] at hrefused
        rw [Op.requireNoNul_bind_of_hasNul _ (by simp [hnul])] at hrefused
        cases hrefused.result_eq
    | false =>
        obtain ⟨k, hk⟩ := exchanges_persist (S := S) (.openFile p) ⟨[], s⟩
        rcases hopened : S.recorded.persist (.openFile p) ⟨[], s⟩ with ⟨opened, t⟩
        rw [hopened] at hk
        cases opened with
        | error e =>
            rw [run_md5_of_not_open hnul hroom hopened] at hrefused
            exact not_refused hk hrefused
        | ok file =>
            have hcall := exchanges_call (S := S) (.close file)
              (S.recorded.digestFrom file room [] {} t).2
            rw [← state_md5_of_open hnul hroom hopened] at hcall
            exact not_refused hcall hrefused
  · rintro rfl
    simp only [md5, if_pos, Op.fail_bind]
    exact ⟨rfl, rfl⟩

/-- So is the value of an attribute. -/
theorem getxattr_refused_iff (follow : Bool) (p : Path) (name : Bytes) (room : Nat) (s : σ) :
    RefusedForRoom p ((S.recorded.getxattr follow p name room).run ⟨[], s⟩) ↔ room = 0 := by
  constructor
  · intro hrefused
    by_contra hroom
    cases hnul : [p, name].any Path.hasNul with
    | true =>
        simp only [getxattr, if_neg hroom] at hrefused
        rw [Op.requireNoNul_bind_of_hasNul _ hnul] at hrefused
        cases hrefused.result_eq
    | false =>
        obtain ⟨-, hstate⟩ :=
          run_getxattr (S := S.recorded) follow (Nat.pos_of_ne_zero hroom) hnul ⟨[], s⟩
        have hcall := exchanges_call (S := S) (.getxattr follow p name room) ⟨[], s⟩
        rw [← hstate] at hcall
        exact not_refused hcall hrefused
  · rintro rfl
    simp only [getxattr, if_pos, Op.fail_bind]
    exact ⟨rfl, rfl⟩

end System

namespace Files

/-- Where a request does not say how much room there is, a valid
configuration does, and that is some. -/
theorem room_eq_zero_iff (F : Files) (room : Option Nat) (setting : Setting) :
    room.getD (F.config.get setting) = 0 ↔ room = some 0 := by
  cases room with
  | none => exact ⟨fun h => absurd h (F.room_ne_zero (Option.some_ne_none 0).symm setting), nofun⟩
  | some n => exact Option.some_inj.symm

end Files
end PosixFiles
