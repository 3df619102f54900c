/-
What calls leave on record.

A call made once adds its exchange. A call that is repeated while it is
interrupted adds one exchange for each interruption, and one for the reply
that it ends with; what is made of the reply cannot tell how many there
were.
-/
import PosixFiles.Proofs.Operation.Run
import PosixFiles.System.Recorded

namespace PosixFiles

theorem eq_error_of_errno? {α : Type} {r : Except Errno α} {e : Errno}
    (h : errno? r = some e) : r = .error e := by
  cases r with
  | ok a => cases h
  | error e' =>
      cases h
      rfl

namespace System

variable {σ : Type} {S : System σ}

theorem exchanges_call (c : Call) (r : Recorded σ) :
    (S.recorded.call c r).2.exchanges
      = r.exchanges ++ [⟨c, (S.recorded.call c r).1⟩] := by
  show (_ :: r.latest).reverse = r.latest.reverse ++ [_]
  exact List.reverse_cons ..

/-- A call and its reply, on record. -/
theorem call_recorded {c : Call} {r : Recorded σ} {reply : Reply c} {t : σ}
    (h : S.call c r.state = (reply, t)) :
    ∃ u, S.recorded.call c r = (reply, u) ∧ u.state = t
      ∧ u.exchanges = r.exchanges ++ [⟨c, reply⟩] := by
  have hreply : (S.recorded.call c r).1 = reply := congrArg Prod.fst h
  refine ⟨(S.recorded.call c r).2, Prod.ext hreply rfl, congrArg Prod.snd h, ?_⟩
  rw [exchanges_call, hreply]

theorem exchanges_persist (c : Call) (r : Recorded σ) :
    ∃ k, (S.recorded.persist c r).2.exchanges
      = r.exchanges ++ (List.replicate k ⟨c, .error .eintr⟩
          ++ [⟨c, (S.recorded.persist c r).1⟩]) := by
  fun_induction System.persist S.recorded c r with
  | case1 r reply h ih =>
      obtain ⟨k, hk⟩ := ih
      refine ⟨k + 1, ?_⟩
      have hreply : (S.recorded.call c r).1 = .error .eintr := eq_error_of_errno? h
      rw [hk, exchanges_call, hreply, List.replicate_succ, List.append_assoc]
      rfl
  | case2 r reply h => exact ⟨0, exchanges_call c r⟩

/-- Between two states nothing is put on record but exchanges of a kind. -/
def Adds (kind : Exchange → Prop) (r t : Recorded σ) : Prop :=
  ∃ es, t.exchanges = r.exchanges ++ es ∧ ∀ x ∈ es, kind x

theorem Adds.trans {kind : Exchange → Prop} {r t u : Recorded σ} (hrt : Adds kind r t)
    (htu : Adds kind t u) : Adds kind r u := by
  obtain ⟨es, hes, hkind⟩ := hrt
  obtain ⟨fs, hfs, hmore⟩ := htu
  refine ⟨es ++ fs, by rw [hfs, hes, List.append_assoc], fun x hx => ?_⟩
  rcases List.mem_append.1 hx with hx | hx
  · exact hkind x hx
  · exact hmore x hx

/-- A call that is repeated adds nothing but itself. -/
theorem adds_persist {kind : Exchange → Prop} {c : Call} (hc : ∀ reply, kind ⟨c, reply⟩)
    (r : Recorded σ) : Adds kind r (S.recorded.persist c r).2 := by
  obtain ⟨k, hk⟩ := exchanges_persist (S := S) c r
  refine ⟨_, hk, fun x hx => ?_⟩
  rcases List.mem_append.1 hx with hx | hx
  · exact List.eq_of_mem_replicate hx ▸ hc _
  · exact List.mem_singleton.1 hx ▸ hc _

end System
end PosixFiles
