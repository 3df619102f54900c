/-
Reading an attribute that is interrupted.

The other operations repeat a call while it is interrupted, so they see
the first reply that is no interruption. Reading an attribute makes its
call once and reports on the first reply of all: an interruption is one
more code to fail with. It gives what a repeated call would have given if
and only if the first reply is no interruption
(`getxattr_takes_first_reply`).
-/
import PosixFiles.Operation.Attribute
import PosixFiles.Proofs.Operation.Record
import PosixFiles.System.Prepared
import PosixFiles.Trial

namespace PosixFiles

/-- What the reply to a request for an attribute comes to. -/
def attributeVerdict (p : Path) : Except Errno Bytes → Except Failure (Option Bytes)
  | .ok value => .ok (some value)
  | .error e => if e = .enodata then .ok none else .error (.ofErrno (.path p) e)

/-- The code of a failure is that of the reply. -/
theorem errno_attributeVerdict {p : Path} {r : Except Errno Bytes} {e : Errno}
    (he : e ≠ .enodata) :
    errno? ((attributeVerdict p r).mapError Failure.errno) = some e ↔ errno? r = some e := by
  cases r with
  | ok value => exact Iff.rfl
  | error e' =>
      by_cases hnone : e' = .enodata
      · subst hnone
        refine ⟨fun h => ?_, fun h => absurd (Option.some.inj h).symm he⟩
        rw [attributeVerdict, if_pos rfl] at h
        cases h
      · rw [attributeVerdict, if_neg hnone]
        exact Iff.rfl

namespace System

variable {σ : Type} {S : System σ}

/-- A run is one call, and then the verdict on its reply. -/
theorem run_getxattr (follow : Bool) {p : Path} {name : Bytes} {room : Nat} (hroom : 0 < room)
    (hnul : [p, name].any Path.hasNul = false) (s : σ) :
    ((S.getxattr follow p name room).run s).result
        = attributeVerdict p (S.call (.getxattr follow p name room) s).1
      ∧ ((S.getxattr follow p name room).run s).state
        = (S.call (.getxattr follow p name room) s).2 := by
  have hne : room ≠ 0 := by omega
  simp only [getxattr, if_neg hne]
  rw [Op.requireNoNul_bind _ hnul, Op.run_issue_bind]
  cases (S.call (.getxattr follow p name room) s).1 with
  | ok value =>
      dsimp only
      rw [Bytes.take_overwrite]
      exact ⟨rfl, rfl⟩
  | error e =>
      by_cases he : e = .enodata
      · subst he
        exact ⟨rfl, rfl⟩
      · simp only [attributeVerdict, if_neg he]
        exact ⟨rfl, rfl⟩

/-- Reading an attribute makes one call, and what it results in is the
verdict on the reply to that. The verdict on the first reply that is no
interruption is the same if the first reply of all is none; if it is one,
the interruption is what is reported. -/
theorem getxattr_takes_first_reply (follow : Bool) {p : Path} {name : Bytes} {room : Nat}
    (hroom : 0 < room) (hnul : [p, name].any Path.hasNul = false) (s : σ) :
    let c := Call.getxattr follow p name room
    let o := (S.recorded.getxattr follow p name room).run ⟨[], s⟩
    o.state.exchanges = [⟨c, (S.call c s).1⟩]
      ∧ o.result = attributeVerdict p (S.call c s).1
      ∧ (o.result = attributeVerdict p (S.persist c s).1
          ↔ errno? (S.call c s).1 ≠ some .eintr)
      ∧ (errno? (o.result.mapError Failure.errno) = some .eintr
          ↔ errno? (S.call c s).1 = some .eintr) := by
  intro c o
  obtain ⟨hresult, hstate⟩ := run_getxattr (S := S.recorded) follow hroom hnul ⟨[], s⟩
  have hfirst : o.result = attributeVerdict p (S.call c s).1 := hresult
  have hcode : ∀ r, errno? ((attributeVerdict p r).mapError Failure.errno) = some .eintr
      ↔ errno? r = some .eintr := fun r => errno_attributeVerdict (by decide)
  refine ⟨?_, hfirst, ⟨?_, ?_⟩, ?_⟩
  · show (((S.recorded.getxattr follow p name room).run ⟨[], s⟩).state).exchanges = _
    rw [hstate]
    exact exchanges_call c ⟨[], s⟩
  · intro heq hinterrupted
    -- what persisting ends in is never an interruption
    refine S.errno?_persist_ne c s ((hcode _).1 ?_)
    rw [← heq, hfirst]
    exact (hcode _).2 hinterrupted
  · intro hne
    rw [hfirst, S.persist_eq_call hne]
  · rw [hfirst]
    exact hcode _

/-- An attribute whose reading is interrupted once, and would have given a
value after that. -/
theorem getxattr_takes_first_reply_interrupted :
    let p : Path := [0x66]
    let name : Bytes := [0x6b]
    let c := Call.getxattr true p name 1
    let s : List PreparedReply :=
      [fun _ => .error .eintr, fun | .getxattr .. => .ok [0x76] | _ => .error .ebadf]
    let o := (prepared.recorded.getxattr true p name 1).run ⟨[], s⟩
    0 < 1 ∧ [p, name].any Path.hasNul = false
      ∧ o.result = .error (.ofErrno (.path p) .eintr)
      ∧ attributeVerdict p (prepared.persist c s).1 = .ok (some [0x76])
      ∧ o.state.exchanges = [⟨c, (prepared.call c s).1⟩]
      ∧ o.result = attributeVerdict p (prepared.call c s).1
      ∧ (o.result = attributeVerdict p (prepared.persist c s).1
          ↔ errno? (prepared.call c s).1 ≠ some .eintr)
      ∧ (errno? (o.result.mapError Failure.errno) = some .eintr
          ↔ errno? (prepared.call c s).1 = some .eintr) :=
  ⟨by decide, by decide, rfl, by
      rw [prepared.persist_of_interrupted rfl, prepared.persist_eq_call (fun h => by cases h)]
      rfl,
    getxattr_takes_first_reply true (by decide) (by decide) _⟩

end System

/-- An interruption is reported where the attribute is there and would
have been read without it. -/
theorem Trial.getxattr_reports_interruption :
    let node : Node :=
      ⟨.regular [], 0o644, true, [([0x75, 0x73, 0x65, 0x72, 0x2e, 0x6b], [0x76])], {}, {}, {}⟩
    let s : Session :=
      { world :=
          { nodes := #[⟨.directory { parent := 0, entries := [([0x66], 1)] }, 0o755, true, [],
                {}, {}, {}⟩, node]
            cwd := 0, mask := 0o022, now := {} } }
    let t : Trial :=
      { request := .getxattr true [0x66] [0x75, 0x73, 0x65, 0x72, 0x2e, 0x6b] none }
    (t.report {} s).result = .ok (some [0x76])
      ∧ (({ t with script := [⟨.getxattr, some .eintr⟩] } : Trial).report {} s).result
        = .error (.ofErrno (.path [0x66]) .eintr)
      ∧ Failure.kind (.ofErrno (.path [0x66]) .eintr) = .interrupted := by
  refine ⟨?_, ?_, by decide⟩
  · rfl
  · rfl

end PosixFiles
