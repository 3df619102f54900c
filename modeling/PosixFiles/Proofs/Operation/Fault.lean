/-
Calls under a script of faults: each either fails with the code of a fault
in the script, or is the call of the system beneath.

What is left of the script is always part of it, so over a whole run every
code that does not come from the system beneath is one that the script had
at the start.
-/
import PosixFiles.Proofs.Operation.Record
import PosixFiles.System.Faulty

namespace PosixFiles

namespace Fault

theorem draw_subset (p : Primitive) (script : List Fault) : (draw p script).2 ⊆ script := by
  induction script with
  | nil => exact List.Subset.refl _
  | cons f rest ih =>
      rw [draw]
      split
      · exact List.subset_cons_self f rest
      · exact List.cons_subset_cons f ih

theorem mem_of_draw {p : Primitive} {script : List Fault} {e : Errno}
    (h : (draw p script).1 = some e) : ⟨p, some e⟩ ∈ script := by
  induction script with
  | nil => cases h
  | cons f rest ih =>
      rw [draw] at h
      by_cases hf : f.primitive = p
      · rw [if_pos hf] at h
        rw [← hf, ← h]
        exact List.mem_cons_self ..
      · rw [if_neg hf] at h
        exact List.mem_cons_of_mem _ (ih h)

end Fault

namespace System

variable {σ : Type} (S : System σ)

/-- A call meets a fault, or is made. -/
theorem faulty_call_cases (c : Call) (r : Recorded (Scripted σ)) :
    (S.faulty.recorded.call c r).2.state.script ⊆ r.state.script
      ∧ ((∃ e, ⟨c.primitive, some e⟩ ∈ r.state.script
            ∧ (S.faulty.recorded.call c r).1 = .error e
            ∧ (c.closesHandle = false →
              (S.faulty.recorded.call c r).2.state.state = r.state.state))
          ∨ (S.faulty.recorded.call c r).1 = (S.call c r.state.state).1
            ∧ (S.faulty.recorded.call c r).2.state.state = (S.call c r.state.state).2) := by
  have hsubset := Fault.draw_subset c.primitive r.state.script
  show (S.faultyCall c r.state).2.script ⊆ _
    ∧ ((∃ e, _ ∧ (S.faultyCall c r.state).1 = _ ∧ (_ → (S.faultyCall c r.state).2.state = _))
      ∨ (S.faultyCall c r.state).1 = _ ∧ (S.faultyCall c r.state).2.state = _)
  rcases hd : Fault.draw c.primitive r.state.script with ⟨_ | e, script⟩
  · rw [hd] at hsubset
    rw [faultyCall_through hd]
    exact ⟨hsubset, Or.inr ⟨rfl, rfl⟩⟩
  · rw [hd] at hsubset
    rw [faultyCall_struck hd]
    refine ⟨hsubset, Or.inl ⟨e, ?_, rfl, fun hc => ?_⟩⟩
    · exact Fault.mem_of_draw (by rw [hd])
    · rw [hc]
      rfl

/-- A call that is repeated meets a fault that is no interruption, or is
made in the end. Interruptions on the way leave no trace beneath. -/
theorem faulty_persist_cases (hS : ∀ c s, errno? (S.call c s).1 ≠ some .eintr) {c : Call}
    (hc : c.closesHandle = false) (r : Recorded (Scripted σ)) :
    (S.faulty.recorded.persist c r).2.state.script ⊆ r.state.script
      ∧ ((∃ e, e ≠ .eintr ∧ ⟨c.primitive, some e⟩ ∈ r.state.script
            ∧ (S.faulty.recorded.persist c r).1 = .error e)
          ∨ (S.faulty.recorded.persist c r).1 = (S.call c r.state.state).1
            ∧ (S.faulty.recorded.persist c r).2.state.state = (S.call c r.state.state).2) := by
  fun_induction System.persist S.faulty.recorded c r with
  | case1 r reply h ih =>
      obtain ⟨hsubset, ⟨e, -, -, hstate⟩ | ⟨hreply, -⟩⟩ := S.faulty_call_cases c r
      · obtain ⟨hmore, hcases⟩ := ih
        have hsame : reply.2.state.state = r.state.state := hstate hc
        rw [hsame] at hcases
        refine ⟨List.Subset.trans hmore hsubset, hcases.imp_left ?_⟩
        rintro ⟨e, hne, hmem, heq⟩
        exact ⟨e, hne, hsubset hmem, heq⟩
      · have heintr : errno? (S.faulty.recorded.call c r).1 = some .eintr := h
        rw [hreply] at heintr
        exact absurd heintr (hS c _)
  | case2 r reply h =>
      obtain ⟨hsubset, ⟨e, hmem, hreply, -⟩ | hmade⟩ := S.faulty_call_cases c r
      · refine ⟨hsubset, Or.inl ⟨e, ?_, hmem, hreply⟩⟩
        rintro rfl
        have hne : errno? (S.faulty.recorded.call c r).1 ≠ some .eintr := h
        rw [hreply] at hne
        exact hne rfl
      · exact ⟨hsubset, Or.inr hmade⟩

end System
end PosixFiles
