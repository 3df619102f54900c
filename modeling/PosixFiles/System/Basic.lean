/-
Systems: whatever replies to system calls.

Some operations go on calling until a reply lets them stop: while a call
is interrupted, while a file has more bytes, while a directory has more
entries, while a link fills the room it was given. A system says how long
that can last. Its `patience` is a number that falls with every reply
that sends the caller round again, and that only opening something may
raise; `longestLink` bounds the room that a link can fill without using
patience up. With these every loop of this library ends on every system,
and no loop counts its steps.
-/
import PosixFiles.Call

namespace PosixFiles

/-- Something that replies to system calls, changing its state `σ`. -/
structure System (σ : Type) where
  /-- The reply to a call, and the state after it. -/
  call : (c : Call) → σ → Reply c × σ
  /-- Sets the mask for the permissions of new files; gives the old one. -/
  setMask : UInt32 → σ → UInt32 × σ
  /-- The present moment. -/
  clock : σ → Timespec
  /-- How much longer callers can be sent round again. -/
  patience : σ → Nat
  /-- A link that fills more room than this uses patience up. -/
  longestLink : Nat
  /-- An interrupted call uses patience up. -/
  interrupted : ∀ c s, errno? (call c s).1 = some .eintr →
    patience (call c s).2 < patience s
  /-- Only opening something gives patience back. -/
  steady : ∀ c s, c.opensHandle = false → patience (call c s).2 ≤ patience s
  /-- Bytes that are read use patience up. -/
  delivers : ∀ h n s b, (call (.read h n) s).1 = .ok b → b ≠ [] →
    patience (call (.read h n) s).2 < patience s
  /-- Entries that are listed use patience up. -/
  lists : ∀ h s d, (call (.readdir h) s).1 = .ok (some d) →
    patience (call (.readdir h) s).2 < patience s
  /-- A passing failure to list uses patience up. -/
  falters : ∀ h s, errno? (call (.readdir h) s).1 = some .eio →
    patience (call (.readdir h) s).2 < patience s
  /-- A link that fills its room is no longer than the longest link, or
  uses patience up. -/
  fills : ∀ p n s b, (call (.readlink p n) s).1 = .ok b → n ≤ b.length →
    n ≤ longestLink ∨ patience (call (.readlink p n) s).2 < patience s

namespace System

variable {σ : Type} (S : System σ)

/-- Calls again for as long as the call is interrupted. -/
def persist (c : Call) (s : σ) : Reply c × σ :=
  let r := S.call c s
  if _h : errno? r.1 = some .eintr then persist c r.2 else r
termination_by S.patience s
decreasing_by exact S.interrupted c s _h

/-- A call that is not interrupted is made once. -/
theorem persist_eq_call {c : Call} {s : σ} (h : errno? (S.call c s).1 ≠ some .eintr) :
    S.persist c s = S.call c s := by
  rw [persist, dif_neg h]

/-- A call that answers is made once. -/
theorem persist_of_ok {c : Call} {s t : σ} {a : c.Answer} (h : S.call c s = (.ok a, t)) :
    S.persist c s = (.ok a, t) := by
  rw [S.persist_eq_call (by rw [h]; exact nofun), h]

/-- A call that is interrupted is made again. -/
theorem persist_of_interrupted {c : Call} {s : σ}
    (h : errno? (S.call c s).1 = some .eintr) :
    S.persist c s = S.persist c (S.call c s).2 := by
  rw [persist, dif_pos h]

/-- What persisting gives is a reply to the call in some state that is
reached by interrupted calls: the state has no more patience than the
first, and the reply is no interruption. -/
theorem exists_call_eq_persist (c : Call) (s : σ) :
    ∃ t, S.patience t ≤ S.patience s ∧ S.persist c s = S.call c t ∧
      errno? (S.call c t).1 ≠ some .eintr := by
  fun_induction S.persist c s with
  | case1 s r h ih =>
    obtain ⟨t, ht, heq, hne⟩ := ih
    exact ⟨t, Nat.le_of_lt (Nat.lt_of_le_of_lt ht (S.interrupted c s h)), heq, hne⟩
  | case2 s r h => exact ⟨s, Nat.le_refl _, rfl, h⟩

/-- Persisting never ends in an interruption. -/
theorem errno?_persist_ne (c : Call) (s : σ) :
    errno? (S.persist c s).1 ≠ some .eintr := by
  obtain ⟨t, -, heq, hne⟩ := S.exists_call_eq_persist c s
  rwa [heq]

/-- Persisting gives no patience back, unless it opens something. -/
theorem patience_persist_le {c : Call} (hc : c.opensHandle = false) (s : σ) :
    S.patience (S.persist c s).2 ≤ S.patience s := by
  obtain ⟨t, ht, heq, -⟩ := S.exists_call_eq_persist c s
  rw [heq]
  exact Nat.le_trans (S.steady c t hc) ht

/-- Bytes read use patience up, also after interruptions. -/
theorem patience_persist_read {h n : Nat} {s : σ} {b : Bytes}
    (hr : (S.persist (.read h n) s).1 = .ok b) (hb : b ≠ []) :
    S.patience (S.persist (.read h n) s).2 < S.patience s := by
  obtain ⟨t, ht, heq, -⟩ := S.exists_call_eq_persist (.read h n) s
  rw [heq] at hr ⊢
  exact Nat.lt_of_lt_of_le (S.delivers h n t b hr hb) ht

/-- A link that fills its room is bounded or uses patience up, also after
interruptions. -/
theorem patience_persist_readlink {p : Path} {n : Nat} {s : σ} {b : Bytes}
    (hr : (S.persist (.readlink p n) s).1 = .ok b) (hb : n ≤ b.length) :
    n ≤ S.longestLink ∨ S.patience (S.persist (.readlink p n) s).2 < S.patience s := by
  obtain ⟨t, ht, heq, -⟩ := S.exists_call_eq_persist (.readlink p n) s
  rw [heq] at hr ⊢
  exact (S.fills p n t b hr hb).imp_right (Nat.lt_of_lt_of_le · ht)

end System
end PosixFiles
