/-
The abstract kinds of failure, and which kind each error code is.

`classify` is total: a code without a kind of its own is plain input or
output trouble. `classifyUnexpected` singles out the few codes that point
at a broken caller or environment rather than at the state of the file
system; where it answers at all it agrees with `classify`
(`classify_eq_of_classifyUnexpected`).
-/
import PosixFiles.Errno.Basic

namespace PosixFiles

/-- What a caller may branch on when an operation fails. -/
inductive ErrorKind where
  /-- A bad pointer or descriptor, or a path the system cannot be given. -/
  | invalidArgument
  /-- The path, or a component of it, does not exist. -/
  | notFound
  /-- Access control refused the operation. -/
  | permissionDenied
  /-- A check of ownership or capability refused the operation. -/
  | operationNotPermitted
  /-- A signal interrupted the call. -/
  | interrupted
  | outOfMemory
  /-- The platform or the file system lacks the operation. -/
  | unsupported
  | timeout
  /-- Every other failure of input or output. -/
  | io
  deriving DecidableEq, Repr

namespace ErrorKind

/-- The stable name of a kind. -/
def name : ErrorKind → String
  | .invalidArgument => "invalid_argument"
  | .notFound => "not_found"
  | .permissionDenied => "permission_denied"
  | .operationNotPermitted => "operation_not_permitted"
  | .interrupted => "interrupted"
  | .outOfMemory => "out_of_memory"
  | .unsupported => "unsupported"
  | .timeout => "timeout"
  | .io => "io"

/-- The kind with the given name. -/
def ofName? : String → Option ErrorKind
  | "invalid_argument" => some .invalidArgument
  | "not_found" => some .notFound
  | "permission_denied" => some .permissionDenied
  | "operation_not_permitted" => some .operationNotPermitted
  | "interrupted" => some .interrupted
  | "out_of_memory" => some .outOfMemory
  | "unsupported" => some .unsupported
  | "timeout" => some .timeout
  | "io" => some .io
  | _ => none

/-- Every kind can be read back from its name. -/
theorem ofName?_name (k : ErrorKind) : ofName? k.name = some k := by
  cases k <;> rfl

end ErrorKind

namespace Errno

/-- The kind of a code. -/
def classify (e : Errno) : ErrorKind :=
  if e = efault ∨ e = ebadf then .invalidArgument
  else if e = etimedout then .timeout
  else if e = enoent then .notFound
  else if e = eacces then .permissionDenied
  else if e = eperm then .operationNotPermitted
  else if e = eintr then .interrupted
  else if e = enomem then .outOfMemory
  else if e = enosys ∨ e = enotsup then .unsupported
  else .io

/-- The kind of a code that signals a broken caller or environment, and
nothing for a code that merely reports how the file system stands. -/
def classifyUnexpected (e : Errno) : Option ErrorKind :=
  if e = efault ∨ e = ebadf then some .invalidArgument
  else if e = enomem then some .outOfMemory
  else if e = enotsup then some .unsupported
  else none

/-- Whether a code belongs to the unexpected class. -/
def isUnexpected (e : Errno) : Bool :=
  e.classifyUnexpected.isSome

/-- The two classifications agree wherever both give a kind. -/
theorem classify_eq_of_classifyUnexpected {e : Errno} {k : ErrorKind}
    (h : e.classifyUnexpected = some k) : e.classify = k := by
  unfold classifyUnexpected at h
  split at h
  · next hbad =>
    cases h
    simp [classify, hbad]
  · split at h
    · next hmem =>
      cases h
      subst hmem
      decide
    · split at h
      · next hsup =>
        cases h
        subst hsup
        decide
      · cases h

end Errno
end PosixFiles
