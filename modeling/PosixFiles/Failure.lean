/-
Failures of operations: what failed, and why.

A failure keeps its cause as data; kind, code, wording and whether it is
of the unexpected class all follow from the cause. Most causes are codes
of the system. The others are refusals that happen before or after the
system is asked: a NUL byte in an argument, and text that is not UTF-8.
-/
import PosixFiles.Errno.Kind
import PosixFiles.Errno.Description
import PosixFiles.Errno.Category
import PosixFiles.Path
import PosixFiles.Text.Utf8

namespace PosixFiles

/-- What a failure is reported against. -/
inductive Subject where
  /-- A path. -/
  | path (p : Path)
  /-- The two paths of a renaming. -/
  | renaming (old new : Path)
  /-- Anything that has a name of its own. -/
  | named (s : String)
  deriving DecidableEq, Repr

/-- The subject as text; broken parts of a path show as U+FFFD. -/
def Subject.text : Subject → String
  | .path p => lossy p
  | .renaming old new => lossy old ++ " -> " ++ lossy new
  | .named s => s

/-- Why an operation failed. -/
inductive Cause where
  /-- A system call reported this code, or the operation found the
  condition that the code stands for. -/
  | errno (e : Errno)
  /-- A path or an attribute name holds a NUL byte. -/
  | nulInPath
  /-- The name of a file to be read whole holds a NUL byte. -/
  | nulInFileName
  /-- A file that should hold text is not valid UTF-8. -/
  | invalidText
  deriving DecidableEq, Repr

/-- A failed operation. -/
structure Failure where
  subject : Subject
  cause : Cause
  deriving DecidableEq, Repr

namespace Cause

/-- The code that stands for a cause. -/
def code : Cause → Errno
  | .errno e => e
  | .nulInPath => .einval
  | .nulInFileName => .einval
  | .invalidText => .eio

/-- The kind of a cause: a NUL byte is an invalid argument, unlike the
code that stands for it. -/
def kind : Cause → ErrorKind
  | .errno e => e.classify
  | .nulInPath => .invalidArgument
  | .nulInFileName => .invalidArgument
  | .invalidText => .io

/-- The wording of a cause. -/
def description : Cause → String
  | .errno e => e.description
  | .nulInPath => "path contains NUL"
  | .nulInFileName => "file name contained an unexpected NUL byte"
  | .invalidText => "stream did not contain valid UTF-8"

end Cause

namespace Failure

/-- The failure that a code of the system means for a subject. -/
def ofErrno (subject : Subject) (e : Errno) : Failure := ⟨subject, .errno e⟩

def errno (f : Failure) : Errno := f.cause.code

def kind (f : Failure) : ErrorKind := f.cause.kind

def description (f : Failure) : String := f.cause.description

/-- What a user is shown: the subject, and the cause in parentheses. -/
def message (f : Failure) : String :=
  f.subject.text ++ " (" ++ f.description ++ ")"

/-- Whether the failure signals a broken caller or environment. -/
def isUnexpected (f : Failure) : Bool := f.errno.isUnexpected

/-- The category under which the host's own error value files it. -/
def category (f : Failure) : String := f.errno.category

end Failure
end PosixFiles
