/-
Reading extended attributes.

The value is read into a buffer of a given size, and what is given is as
much of the front of the buffer as was read. A value that does not fit is
a failure, never cut; an attribute that is not there is no failure. This
call is made once, also when it is interrupted.
-/
import PosixFiles.Operation.Basic

namespace PosixFiles
namespace System

variable {σ : Type} (S : System σ)

/-- The value of an attribute of a file, of a link itself unless
`follow`; nothing if the file has no such attribute. Without any room the
system would merely measure the value, so that is refused. -/
def getxattr (follow : Bool) (p : Path) (name : Bytes) (room : Nat) : Op σ (Option Bytes) := do
  if room = 0 then Op.fail (.ofErrno (.path p) .einval)
  Op.requireNoNul (.path p) [p, name]
  match ← Op.issue S (.getxattr follow p name room) with
  | .ok value => pure (some ((Bytes.overwrite (Bytes.zeros room) value).take value.length))
  | .error e =>
      if e = .enodata then do
        Op.emit (.attributeAbsent p name)
        pure none
      else Op.fail (.ofErrno (.path p) e)

end System
end PosixFiles
