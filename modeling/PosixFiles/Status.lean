/-
What the system reports about a file: times, type, permissions, size and
identity.

A mode is one word: four bits say what kind of file it is, twelve what may
be done with it. The type bits written for a kind are read back as that
kind (`FileType.ofMode_bits`).
-/
import PosixFiles.Errno.Kind

namespace PosixFiles

-- ================================================================= times

/-- A moment: seconds since the epoch, and nanoseconds after them. -/
structure Timespec where
  secs : Int64 := 0
  nanos : UInt32 := 0
  deriving DecidableEq, Repr, Inhabited

namespace Timespec

/-- Earlier seconds come first, then earlier nanoseconds. -/
instance : Ord Timespec where
  compare a b := (compare a.secs b.secs).then (compare a.nanos b.nanos)

/-- Moments in order, equal ones in the order given. -/
def sorted (times : List Timespec) : List Timespec :=
  times.mergeSort fun a b => (compare a b).isLE

end Timespec

-- ============================================================ file types

/-- The kind of a file. -/
inductive FileType where
  | regular
  | directory
  | symlink
  | fifo
  | charDevice
  | blockDevice
  | socket
  | unknown
  deriving DecidableEq, Repr

namespace FileType

/-- The bits of a mode that hold the file type. -/
def mask : UInt32 := 0o170000

/-- The type bits of each kind; none for the unknown kind. -/
def bits : FileType → UInt32
  | .regular => 0o100000
  | .directory => 0o040000
  | .symlink => 0o120000
  | .fifo => 0o010000
  | .charDevice => 0o020000
  | .blockDevice => 0o060000
  | .socket => 0o140000
  | .unknown => 0

/-- The kind that a mode describes. -/
def ofMode (mode : UInt32) : FileType :=
  let type := mode &&& mask
  if type = bits .regular then .regular
  else if type = bits .directory then .directory
  else if type = bits .symlink then .symlink
  else if type = bits .fifo then .fifo
  else if type = bits .charDevice then .charDevice
  else if type = bits .blockDevice then .blockDevice
  else if type = bits .socket then .socket
  else .unknown

/-- The kind is read back from its bits. -/
theorem ofMode_bits (t : FileType) : ofMode t.bits = t := by
  cases t <;> decide

end FileType

/-- The permission bits of a mode: read, write and search for owner, group
and others, and the three special bits. -/
def permissionMask : UInt32 := 0o7777

-- ================================================================ status

/-- Everything that is reported about one file at one moment. -/
structure Status where
  /-- Type and permission bits. -/
  mode : UInt32 := 0
  atime : Timespec := {}
  mtime : Timespec := {}
  ctime : Timespec := {}
  size : UInt64 := 0
  dev : UInt64 := 0
  ino : UInt64 := 0
  deriving DecidableEq, Repr, Inhabited

namespace Status

def fileType (s : Status) : FileType := FileType.ofMode s.mode

def isFile (s : Status) : Bool := s.fileType == .regular

def isDirectory (s : Status) : Bool := s.fileType == .directory

def isSymlink (s : Status) : Bool := s.fileType == .symlink

/-- The permission bits, the three special ones among them. -/
def permissions (s : Status) : UInt32 := s.mode &&& permissionMask

/-- Whether two reports are about one and the same file. -/
def sameFile (a b : Status) : Bool := a.dev == b.dev && a.ino == b.ino

end Status

/-- A status, or an ordinary failure to get one, kept as data. -/
inductive StatOutcome where
  | status (s : Status)
  | error (kind : ErrorKind) (errno : Errno)
  deriving DecidableEq, Repr

namespace StatOutcome

/-- A failure with the kind that its code has. -/
def ofErrno (e : Errno) : StatOutcome := .error e.classify e

def status? : StatOutcome → Option Status
  | .status s => some s
  | .error .. => none

def hasError : StatOutcome → Bool
  | .status _ => false
  | .error .. => true

/-- The code of the failure; zero where there is a status. -/
def errno : StatOutcome → Errno
  | .status _ => ⟨0⟩
  | .error _ e => e

def kind? : StatOutcome → Option ErrorKind
  | .status _ => none
  | .error k _ => some k

/-- Whether the path does not exist. -/
def isNotFound (o : StatOutcome) : Bool := o.kind? == some .notFound

end StatOutcome
end PosixFiles
