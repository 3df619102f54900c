/-
Replies put in the place of a system's own.

A disguise may prescribe one status for every `stat`, one target for
every `readlink`, and the type hint for entries of given names. All other
calls, and all failures to list, are the system's own.
-/
import PosixFiles.System.Basic

namespace PosixFiles

/-- Prescribed replies. -/
structure Disguise where
  /-- The status of every path, links followed or not. -/
  status : Option Status := none
  /-- The target of every link. -/
  target : Option Bytes := none
  /-- The type hints of the entries of the given names. -/
  hints : List (Name × UInt8) := []

namespace Disguise

/-- An entry with its prescribed hint. -/
def hinted (d : Disguise) (e : StreamEntry) : StreamEntry :=
  { e with hint := (d.hints.lookup e.name).getD e.hint }

/-- The reply to a call under a disguise. -/
def call {σ : Type} (d : Disguise) (S : System σ) : (c : Call) → σ → Reply c × σ
  | .stat follow p, s =>
      match d.status with
      | some st => (.ok st, s)
      | none => S.call (.stat follow p) s
  | .readlink p n, s =>
      match d.target with
      | some b => (.ok (b.take n), s)
      | none => S.call (.readlink p n) s
  | .readdir h, s =>
      let r := S.call (.readdir h) s
      (r.1.map (·.map d.hinted), r.2)
  | c, s => S.call c s

end Disguise

namespace System

variable {σ : Type}

/-- A disguise uses up no more patience than the system beneath. -/
private theorem disguised_patience (S : System σ) (d : Disguise) (c : Call) (s : σ)
    (h : S.patience (S.call c s).2 ≤ S.patience s) :
    S.patience (d.call S c s).2 ≤ S.patience s := by
  unfold Disguise.call
  split
  · split
    · exact Nat.le_refl _
    · exact h
  · split
    · exact Nat.le_refl _
    · exact h
  · exact h
  · exact h

/-- A listing reply under a disguise is one of the system's own but for
the hint. -/
private theorem map_hinted_eq_ok {d : Disguise} {r : Except Errno (Option StreamEntry)}
    {e : StreamEntry} (h : r.map (·.map d.hinted) = .ok (some e)) :
    ∃ e', r = .ok (some e') := by
  cases r with
  | error _ => cases h
  | ok o =>
    cases o with
    | none => cases h
    | some e' => exact ⟨e', rfl⟩

/-- Mapping an answer leaves the code of a failure. -/
private theorem errno?_map {α β : Type} (f : α → β) (r : Except Errno α) :
    errno? (r.map f) = errno? r := by
  cases r <;> rfl

/-- A system whose replies are disguised. -/
def disguised (S : System σ) (d : Disguise) : System σ where
  call := d.call S
  setMask := S.setMask
  clock := S.clock
  patience := S.patience
  longestLink := max S.longestLink ((d.target.map List.length).getD 0)
  interrupted c s h := by
    unfold Disguise.call at h ⊢
    split at h
    · split at h
      · cases h
      · exact S.interrupted _ s h
    · split at h
      · cases h
      · exact S.interrupted _ s h
    · exact S.interrupted _ s (by rwa [errno?_map] at h)
    · exact S.interrupted _ s h
  steady c s hc := S.disguised_patience d c s (S.steady c s hc)
  delivers := S.delivers
  lists h s e hr := by
    obtain ⟨e', he⟩ := map_hinted_eq_ok hr
    exact S.lists h s e' he
  falters h s hr := S.falters h s (by
    have : errno? ((S.call (.readdir h) s).1.map (·.map d.hinted)) = some .eio := hr
    rwa [errno?_map] at this)
  fills p n s b hr hb := by
    cases ht : d.target with
    | none =>
      simp only [Disguise.call, ht] at hr ⊢
      exact (S.fills p n s b hr hb).imp_left fun h => by omega
    | some t =>
      simp only [Disguise.call, ht] at hr
      cases hr
      left
      simp only [List.length_take] at hb
      simp only [Option.map_some, Option.getD_some]
      omega

end System
end PosixFiles
