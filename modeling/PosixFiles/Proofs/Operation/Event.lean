/-
What operations note, and what is on record.

# Books

Events are a second account of a run, beside the record of its exchanges.
For most operations the first account can be computed from the second: each
exchange deserves one event, or none, whatever comes before and after it
(`Op.Notes`). An event is noted after the reply it is about, so in the midst
of an operation one event may still be owed; the laws for sequences of steps
pass that debt on.

What cannot be computed in this way is the event that an operation notes at
its end, on success only. It depends on the value that is given
(`Op.run_bind_emit`).

# Aborted runs

Nothing is assumed about the replies, so an operation may be aborted
anywhere. What it noted until then is still what the exchanges until then
deserve.
-/
import PosixFiles.Proofs.Operation.Record

namespace PosixFiles

namespace System

variable {σ : Type} {S : System σ}

/-- What is put on record after a call comes after its exchange. -/
theorem exchanges_of_call {c : Call} {reply : Reply c} {r t : Recorded σ} {es : List Exchange}
    (hr : (S.recorded.call c r).1 = reply)
    (ht : t.exchanges = (S.recorded.call c r).2.exchanges ++ es) :
    t.exchanges = r.exchanges ++ ⟨c, reply⟩ :: es := by
  rw [ht, exchanges_call, hr, List.append_assoc]
  rfl

end System

namespace Op

variable {σ α β : Type} {S : System σ} {note : Exchange → Option Event} {owed : Option Event}

/-- Events that exchanges deserve say what the exchanges show. -/
theorem filterMap_notes {said : Event → Option α} {shown : Exchange → Option α}
    (h : ∀ x, (note x).bind said = shown x) (es : List Exchange) :
    (es.filterMap note).filterMap said = es.filterMap shown := by
  rw [List.filterMap_filterMap]
  exact congrArg (fun f => es.filterMap f) (funext h)

/-- Whatever state it is run from, an operation notes what is owed, and then
what each exchange deserves that it puts on record. -/
def Notes (note : Exchange → Option Event) (owed : Option Event) (x : Op (Recorded σ) α) :
    Prop :=
  ∀ r, ∃ es, (x.run r).state.exchanges = r.exchanges ++ es
    ∧ (x.run r).events = owed.toList ++ es.filterMap note

theorem notes_pure (a : α) : Notes note none (pure a : Op (Recorded σ) α) :=
  fun _ => ⟨[], (List.append_nil _).symm, rfl⟩

theorem notes_fail (f : Failure) : Notes note none (fail f : Op (Recorded σ) α) :=
  fun _ => ⟨[], (List.append_nil _).symm, rfl⟩

theorem notes_emit (e : Event) : Notes note (some e) (emit e : Op (Recorded σ) Unit) :=
  fun _ => ⟨[], (List.append_nil _).symm, rfl⟩

theorem notes_accept (subject : Subject) (reply : Except Errno α) :
    Notes note none (accept subject reply : Op (Recorded σ) α) := by
  cases reply with
  | ok a => exact notes_pure a
  | error e => exact notes_fail _

theorem notes_closed (subject : Subject) (reply : Except Errno Unit) :
    Notes note none (closed subject reply : Op (Recorded σ) Unit) := by
  cases reply with
  | ok u => exact notes_pure u
  | error e =>
      unfold closed
      dsimp only
      split
      · exact notes_pure ()
      · exact notes_fail _

theorem notes_requireNoNul (subject : Subject) (arguments : List Bytes) :
    Notes note none (requireNoNul subject arguments : Op (Recorded σ) Unit) := by
  unfold requireNoNul
  split
  · exact notes_fail _
  · exact notes_pure ()

/-- A call that is repeated while it is interrupted notes nothing if nothing
is deserved. -/
theorem notes_persist {c : Call} (hc : ∀ reply, note ⟨c, reply⟩ = none) :
    Notes note none (persist S.recorded c) := by
  intro r
  obtain ⟨es, hes, hkind⟩ : System.Adds (fun x => note x = none) r (S.recorded.persist c r).2 :=
    System.adds_persist hc r
  exact ⟨es, hes, (List.filterMap_eq_nil_iff.2 hkind).symm⟩

namespace Notes

/-- What is owed is noted by the first of two operations in a row. -/
theorem bind {x : Op (Recorded σ) α} {f : α → Op (Recorded σ) β} (hx : Notes note owed x)
    (hf : ∀ a, (∃ r, (x.run r).result = .ok a) → Notes note none (f a)) :
    Notes note owed (x >>= f) := by
  intro r
  obtain ⟨es, hes, hevents⟩ := hx r
  rw [run_bind]
  cases hresult : (x.run r).result with
  | error e => exact ⟨es, hes, hevents⟩
  | ok a =>
      obtain ⟨fs, hfs, hmore⟩ := hf a ⟨r, hresult⟩ (x.run r).state
      refine ⟨es ++ fs, ?_, ?_⟩
      · rw [← List.append_assoc, ← hes]
        exact hfs
      · rw [List.filterMap_append, ← List.append_assoc, ← hevents]
        exact congrArg _ hmore

/-- After a call, what its exchange deserves is owed. -/
theorem issue_bind {c : Call} {f : Reply c → Op (Recorded σ) β}
    (hf : ∀ reply, Notes note (note ⟨c, reply⟩) (f reply)) :
    Notes note none (issue S.recorded c >>= f) := by
  intro r
  obtain ⟨es, hes, hevents⟩ := hf (S.recorded.call c r).1 (S.recorded.call c r).2
  refine ⟨⟨c, (S.recorded.call c r).1⟩ :: es, ?_, ?_⟩
  · rw [run_issue_bind]
    exact System.exchanges_of_call rfl hes
  · rw [run_issue_bind, hevents, List.filterMap_cons]
    cases note ⟨c, (S.recorded.call c r).1⟩ <;> rfl

end Notes

/-- A last event is noted on success only. -/
theorem run_bind_emit (x : Op σ α) (event : α → Event) (value : α → β) (s : σ) :
    (x >>= fun a => emit (event a) >>= fun _ => pure (value a)).run s =
      ⟨(x.run s).result.map value,
        (x.run s).events ++
          match (x.run s).result with
          | .ok a => [event a]
          | .error _ => [],
        (x.run s).state⟩ := by
  rw [run_bind]
  cases (x.run s).result with
  | ok a => rfl
  | error e => rw [List.append_nil]; rfl

end Op
end PosixFiles
