/-
Calls made through the C library, which gives codes out of band.

A call of the library returns an answer, or a mark that there is none: a
negative number, or a null pointer. Why there is none stands in a cell that
all calls share; a failure leaves its code there, and a success may leave
anything. For most calls the mark alone tells that the call has failed.
Reading a directory returns a null pointer at its end as well, and then the
cell is left as it was. So the cell is cleared before, and what it holds
afterwards tells the end from a failure.

Since the cell is cleared, it does not matter what other calls left in it:
the replies are those of the system beneath (`signalledCall_reply`).
-/
import PosixFiles.System.Basic

namespace PosixFiles

/-- What the cell for codes holds when it is cleared. -/
def Errno.zero : Errno := ⟨0⟩

/-- A state together with the cell for codes. -/
structure Signalled (σ : Type) where
  cell : Errno
  state : σ

namespace System

variable {σ : Type} (S : System σ) (stir : Call → Errno → Errno)

/-- What a call returns: its answer, or nothing. `stir` says what a success
leaves in the cell. -/
def returned (c : Call) (s : Signalled σ) : Option c.Answer × Signalled σ :=
  match S.call c s.state with
  | (.ok a, t) => (some a, ⟨stir c s.cell, t⟩)
  | (.error e, t) => (none, ⟨e, t⟩)

/-- What reading a directory returns: an entry, or nothing. -/
def pointed (dir : Handle) (s : Signalled σ) : Option StreamEntry × Signalled σ :=
  match S.call (.readdir dir) s.state with
  | (.ok (some e), t) => (some e, ⟨stir (.readdir dir) s.cell, t⟩)
  | (.ok none, t) => (none, ⟨s.cell, t⟩)
  | (.error e, t) => (none, ⟨e, t⟩)

/-- The reply to a call, told from what it returns and from the cell. -/
def signalledCall : (c : Call) → Signalled σ → Reply c × Signalled σ
  | .readdir dir, s =>
      let r := S.pointed stir dir { s with cell := .zero }
      match r.1 with
      | some e => (.ok (some e), r.2)
      | none => if r.2.cell = .zero then (.ok none, r.2) else (.error r.2.cell, r.2)
  | c, s =>
      let r := S.returned stir c s
      match r.1 with
      | some a => (.ok a, r.2)
      | none => (.error r.2.cell, r.2)

variable {S stir}

/-- Reading a directory gives what the system beneath does, but for a code
that is no code. -/
theorem signalledCall_readdir (dir : Handle) (s : Signalled σ) :
    (S.signalledCall stir (.readdir dir) s).1
        = (match (S.call (.readdir dir) s.state).1 with
          | .ok x => .ok x
          | .error e => if e = .zero then .ok none else .error e)
      ∧ (S.signalledCall stir (.readdir dir) s).2.state
        = (S.call (.readdir dir) s.state).2 := by
  unfold signalledCall pointed
  dsimp only
  rcases S.call (.readdir dir) s.state with ⟨_ | (_ | e), t⟩
  · dsimp only
    split <;> exact ⟨rfl, rfl⟩
  · exact ⟨rfl, rfl⟩
  · exact ⟨rfl, rfl⟩

/-- Any other call gives what the system beneath does. -/
theorem signalledCall_of_ne {c : Call} (hc : ∀ dir, c ≠ .readdir dir) (s : Signalled σ) :
    (S.signalledCall stir c s).1 = (S.call c s.state).1
      ∧ (S.signalledCall stir c s).2.state = (S.call c s.state).2 := by
  have hcall : S.signalledCall stir c s =
      match (S.returned stir c s).1 with
      | some a => (.ok a, (S.returned stir c s).2)
      | none => (.error (S.returned stir c s).2.cell, (S.returned stir c s).2) := by
    cases c <;> first | rfl | exact absurd rfl (hc _)
  rw [hcall, returned]
  rcases S.call c s.state with ⟨_ | a, t⟩ <;> exact ⟨rfl, rfl⟩

/-- The state beneath is the one that the call leads to. -/
theorem signalledCall_state (c : Call) (s : Signalled σ) :
    (S.signalledCall stir c s).2.state = (S.call c s.state).2 := by
  by_cases hc : ∃ dir, c = .readdir dir
  · obtain ⟨dir, rfl⟩ := hc
    exact (signalledCall_readdir dir s).2
  · exact (signalledCall_of_ne (fun dir h => hc ⟨dir, h⟩) s).2

/-- Whatever the cell held, the reply is that of the system beneath, unless
that gives zero for a code. -/
theorem signalledCall_reply {c : Call} {s : Signalled σ}
    (h : errno? (S.call c s.state).1 ≠ some .zero) :
    (S.signalledCall stir c s).1 = (S.call c s.state).1 := by
  by_cases hc : ∃ dir, c = .readdir dir
  · obtain ⟨dir, rfl⟩ := hc
    rw [(signalledCall_readdir dir s).1]
    cases hr : (S.call (.readdir dir) s.state).1 with
    | ok x => rfl
    | error e =>
        rw [hr] at h
        exact if_neg fun he => h (congrArg some he)
  · exact (signalledCall_of_ne (fun dir hd => hc ⟨dir, hd⟩) s).1

/-- A code that is told is one of the system beneath. -/
private theorem errno?_of_signalledCall {c : Call} {s : Signalled σ} {e : Errno}
    (h : errno? (S.signalledCall stir c s).1 = some e) :
    errno? (S.call c s.state).1 = some e := by
  by_cases hzero : errno? (S.call c s.state).1 = some .zero
  · by_cases hc : ∃ dir, c = .readdir dir
    · obtain ⟨dir, rfl⟩ := hc
      rw [(signalledCall_readdir dir s).1] at h
      cases hr : (S.call (.readdir dir) s.state).1 with
      | ok x =>
          rw [hr] at h
          exact h
      | error e' =>
          rw [hr] at h hzero
          dsimp only at h
          rw [if_pos (Option.some.inj hzero)] at h
          cases h
    · rwa [(signalledCall_of_ne (fun dir hd => hc ⟨dir, hd⟩) s).1] at h
  · rwa [signalledCall_reply hzero] at h

/-- A system whose replies are told from what the library returns. -/
def signalled (S : System σ) (stir : Call → Errno → Errno) : System (Signalled σ) where
  call := S.signalledCall stir
  setMask m s := ((S.setMask m s.state).1, ⟨s.cell, (S.setMask m s.state).2⟩)
  clock s := S.clock s.state
  patience s := S.patience s.state
  longestLink := S.longestLink
  interrupted c s h := by
    rw [signalledCall_state]
    exact S.interrupted c s.state (errno?_of_signalledCall h)
  steady c s hc := by
    rw [signalledCall_state]
    exact S.steady c s.state hc
  delivers h n s b hr hb := by
    rw [signalledCall_state]
    rw [(signalledCall_of_ne (fun _ hc => by cases hc) s).1] at hr
    exact S.delivers h n s.state b hr hb
  lists h s d hr := by
    rw [signalledCall_state]
    rw [(signalledCall_readdir h s).1] at hr
    refine S.lists h s.state d ?_
    cases hcall : (S.call (.readdir h) s.state).1 with
    | ok x =>
        rw [hcall] at hr
        exact hr
    | error e =>
        rw [hcall] at hr
        dsimp only at hr
        split at hr <;> cases hr
  falters h s hr := by
    rw [signalledCall_state]
    exact S.falters h s.state (errno?_of_signalledCall hr)
  fills p n s b hr hb := by
    rw [signalledCall_state]
    rw [(signalledCall_of_ne (fun _ hc => by cases hc) s).1] at hr
    exact S.fills p n s.state b hr hb

end System
end PosixFiles
