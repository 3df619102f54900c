/-
Faults put in the way of a system.

A script lists faults in the order in which they are to strike, each for
one primitive; a call takes the first fault of its primitive out of the
script. A fault without a code lets the call through. A fault with a code
makes the call fail with that code and without effect, except that closing
still gives the handle back.

A script is finite and every fault strikes once, so a faulty system is as
patient as the system beneath it and the length of the script together.
-/
import PosixFiles.System.Basic

namespace PosixFiles

/-- What is to happen to one call of a primitive. -/
structure Fault where
  primitive : Primitive
  /-- The code to fail with, or none to let the call through. -/
  errno : Option Errno
  deriving DecidableEq, Repr

namespace Fault

/-- Takes the first fault of a primitive out of a script: its code, if it
has one, and what is left of the script. -/
def draw (p : Primitive) : List Fault → Option Errno × List Fault
  | [] => (none, [])
  | f :: rest =>
      if f.primitive = p then (f.errno, rest)
      else ((draw p rest).1, f :: (draw p rest).2)

/-- Drawing makes no script longer. -/
theorem length_draw_le (p : Primitive) (script : List Fault) :
    (draw p script).2.length ≤ script.length := by
  induction script with
  | nil => simp [draw]
  | cons f rest ih =>
    simp only [draw]
    split
    · simp
    · simpa using ih

/-- Drawing a code makes a script shorter. -/
theorem length_draw_lt {p : Primitive} {script : List Fault} {e : Errno}
    (h : (draw p script).1 = some e) : (draw p script).2.length < script.length := by
  induction script with
  | nil => simp [draw] at h
  | cons f rest ih =>
    simp only [draw] at h ⊢
    split
    · simp
    · next hne =>
      simp only [hne, ↓reduceIte] at h
      simpa using ih h

end Fault

/-- A state together with the faults still to strike. -/
structure Scripted (σ : Type) where
  script : List Fault
  state : σ

namespace System

variable {σ : Type} (S : System σ)

/-- The reply of a system under a script of faults. -/
def faultyCall (c : Call) (s : Scripted σ) : Reply c × Scripted σ :=
  match Fault.draw c.primitive s.script with
  | (none, script) =>
      let r := S.call c s.state
      (r.1, ⟨script, r.2⟩)
  | (some e, script) =>
      if c.closesHandle then (.error e, ⟨script, (S.call c s.state).2⟩)
      else (.error e, ⟨script, s.state⟩)

variable {S}

/-- A call that meets no code is the call itself. -/
theorem faultyCall_through {c : Call} {s : Scripted σ} {script : List Fault}
    (h : Fault.draw c.primitive s.script = (none, script)) :
    S.faultyCall c s = ((S.call c s.state).1, ⟨script, (S.call c s.state).2⟩) := by
  simp [faultyCall, h]

/-- A call that meets a code fails with it. -/
theorem faultyCall_struck {c : Call} {s : Scripted σ} {e : Errno} {script : List Fault}
    (h : Fault.draw c.primitive s.script = (some e, script)) :
    S.faultyCall c s = (.error e,
      ⟨script, if c.closesHandle then (S.call c s.state).2 else s.state⟩) := by
  simp only [faultyCall, h]
  split <;> rfl

/-- The patience of a faulty system. -/
def faultyPatience (S : System σ) (s : Scripted σ) : Nat :=
  s.script.length + S.patience s.state

/-- A call that meets a code uses patience up. -/
theorem faultyPatience_struck {c : Call} {s : Scripted σ} {e : Errno} {script : List Fault}
    (h : Fault.draw c.primitive s.script = (some e, script)) :
    S.faultyPatience (S.faultyCall c s).2 < S.faultyPatience s := by
  have hlt : (Fault.draw c.primitive s.script).2.length < s.script.length :=
    Fault.length_draw_lt (e := e) (by rw [h])
  rw [faultyCall_struck h]
  simp only [h] at hlt
  simp only [faultyPatience]
  cases hc : c.closesHandle
  · simp only [Bool.false_eq_true, ↓reduceIte]; omega
  · have hs := S.steady c s.state (by cases c <;> simp_all [Call.closesHandle, Call.opensHandle])
    simp only [↓reduceIte]; omega

/-- A call that is let through uses up what the call itself does. -/
theorem faultyPatience_through {c : Call} {s : Scripted σ} {script : List Fault}
    (h : Fault.draw c.primitive s.script = (none, script)) :
    S.faultyPatience (S.faultyCall c s).2 + S.patience s.state
      ≤ S.faultyPatience s + S.patience (S.call c s.state).2 := by
  have hle := Fault.length_draw_le c.primitive s.script
  rw [h] at hle
  rw [faultyCall_through h]
  simp only at hle
  simp only [faultyPatience]
  omega

/-- A system under a script of faults. -/
def faulty (S : System σ) : System (Scripted σ) where
  call := S.faultyCall
  setMask m s := ((S.setMask m s.state).1, ⟨s.script, (S.setMask m s.state).2⟩)
  clock s := S.clock s.state
  patience := S.faultyPatience
  longestLink := S.longestLink
  interrupted c s h := by
    rcases hd : Fault.draw c.primitive s.script with ⟨_ | e, script⟩
    · have := faultyPatience_through (S := S) hd
      rw [faultyCall_through hd] at h
      have := S.interrupted c s.state h
      omega
    · exact faultyPatience_struck hd
  steady c s hc := by
    rcases hd : Fault.draw c.primitive s.script with ⟨_ | e, script⟩
    · have := faultyPatience_through (S := S) hd
      have := S.steady c s.state hc
      omega
    · exact Nat.le_of_lt (faultyPatience_struck hd)
  delivers h n s b hr hb := by
    rcases hd : Fault.draw (Call.read h n).primitive s.script with ⟨_ | e, script⟩
    · have := faultyPatience_through (S := S) hd
      rw [faultyCall_through hd] at hr
      have := S.delivers h n s.state b hr hb
      omega
    · exact faultyPatience_struck hd
  lists h s d hr := by
    rcases hd : Fault.draw (Call.readdir h).primitive s.script with ⟨_ | e, script⟩
    · have := faultyPatience_through (S := S) hd
      rw [faultyCall_through hd] at hr
      have := S.lists h s.state d hr
      omega
    · exact faultyPatience_struck hd
  falters h s hr := by
    rcases hd : Fault.draw (Call.readdir h).primitive s.script with ⟨_ | e, script⟩
    · have := faultyPatience_through (S := S) hd
      rw [faultyCall_through hd] at hr
      have := S.falters h s.state hr
      omega
    · exact faultyPatience_struck hd
  fills p n s b hr hb := by
    rcases hd : Fault.draw (Call.readlink p n).primitive s.script with ⟨_ | e, script⟩
    · have := faultyPatience_through (S := S) hd
      rw [faultyCall_through hd] at hr
      refine (S.fills p n s.state b hr hb).imp_right fun h => ?_
      omega
    · exact .inr (faultyPatience_struck hd)

end System
end PosixFiles
