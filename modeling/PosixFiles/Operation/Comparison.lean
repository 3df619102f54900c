/-
Comparing what paths lead to, and what the two ways of asking for a status
tell.
-/
import PosixFiles.Operation.Entry

namespace PosixFiles

/-- Whether a status asked for, and the same with ordinary failures kept
as data, tell the same: one status, one kind and code, or one failure. -/
def StatOutcome.agree : Except Failure Status → Except Failure StatOutcome → Bool
  | .ok s, .ok (.status t) => s = t
  | .error f, .ok (.error kind e) => f.kind = kind && f.errno = e
  | .error f, .error g => f = g
  | _, _ => false

namespace System

variable {σ : Type} (S : System σ)

/-- Whether both paths lead to one and the same file. -/
def isSameFile (a b : Path) : Op σ Bool := do
  match ← (S.stat true a).attempt, ← (S.stat true b).attempt with
  | .ok s, .ok t => pure (s.sameFile t)
  | _, _ => pure false

/-- Whether both ways of asking for the status of a path tell the same. -/
def isStatConsistent (follow : Bool) (p : Path) : Op σ Bool := do
  pure (StatOutcome.agree (← (S.stat follow p).attempt) (← (S.statOutcome follow p).attempt))

end System
end PosixFiles
