/-
System calls as data.

A `Call` is one call with its arguments, `Call.Answer` the type of what it
answers when it succeeds, and `Reply` an answer or an error code. Giving
calls as data lets a system be anything that replies to them: a modelled
file system, a script of prepared replies, or another system with faults
put in its way.
-/
import PosixFiles.Path
import PosixFiles.Status

namespace PosixFiles

/-- What an open file or directory is called by the process that opened
it. -/
abbrev Handle := Nat

/-- An entry as a directory stream delivers it: a name, and a hint at the
type of what it names, which need not be there (zero) nor be true. -/
structure StreamEntry where
  name : Name
  hint : UInt8
  deriving DecidableEq, Repr, Inhabited

/-- What becomes of one of the two times of a file. -/
inductive TimeSetting where
  /-- It stays. -/
  | keep
  /-- It becomes the present moment. -/
  | now
  /-- It becomes the given moment. -/
  | set (t : Timespec)
  deriving DecidableEq, Repr

/-- One system call and its arguments. -/
inductive Call where
  /-- The status of a path, of a link itself unless `follow`. -/
  | stat (follow : Bool) (path : Path)
  /-- The status of an entry of an open directory, links followed. -/
  | fstatat (dir : Handle) (name : Name)
  | link (old new : Path)
  | symlink (target link : Path)
  /-- The target of a link, cut at the given number of bytes. -/
  | readlink (path : Path) (room : Nat)
  | rename (old new : Path)
  | unlink (path : Path)
  /-- Deletes a file, or a directory that is empty. -/
  | remove (path : Path)
  | chmod (path : Path) (mode : UInt32)
  | mkfifo (path : Path) (mode : UInt32)
  | mkdir (path : Path) (mode : UInt32)
  | utimensat (path : Path) (atime mtime : TimeSetting)
  /-- Sets both times, in whole seconds. -/
  | utime (path : Path) (atime mtime : Int64)
  /-- An attribute of a file, if it fits the given number of bytes. -/
  | getxattr (follow : Bool) (path : Path) (name : Bytes) (room : Nat)
  /-- Opens a file for reading. -/
  | openFile (path : Path)
  | read (file : Handle) (room : Nat)
  | close (file : Handle)
  | opendir (path : Path)
  /-- The next entry of a directory stream, or nothing at its end. -/
  | readdir (dir : Handle)
  | closedir (dir : Handle)
  deriving DecidableEq, Repr

namespace Call

/-- What a call answers when it succeeds. -/
@[reducible] def Answer : Call → Type
  | .stat .. => Status
  | .fstatat .. => Status
  | .link .. => Unit
  | .symlink .. => Unit
  | .readlink .. => Bytes
  | .rename .. => Unit
  | .unlink .. => Unit
  | .remove .. => Unit
  | .chmod .. => Unit
  | .mkfifo .. => Unit
  | .mkdir .. => Unit
  | .utimensat .. => Unit
  | .utime .. => Unit
  | .getxattr .. => Bytes
  | .openFile .. => Handle
  | .read .. => Bytes
  | .close .. => Unit
  | .opendir .. => Handle
  | .readdir .. => Option StreamEntry
  | .closedir .. => Unit

/-- Whether a call that succeeds leaves a new handle to be used. -/
def opensHandle : Call → Bool
  | .openFile .. | .opendir .. => true
  | _ => false

/-- Whether a call gives a handle back, whatever it replies. -/
def closesHandle : Call → Bool
  | .close .. | .closedir .. => true
  | _ => false

end Call

/-- What a system replies to a call: an answer, or a code. -/
abbrev Reply (c : Call) := Except Errno c.Answer

/-- The code of a reply that is a failure. -/
def errno? {α : Type} : Except Errno α → Option Errno
  | .ok _ => none
  | .error e => some e

@[simp] theorem errno?_ok {α : Type} (a : α) : errno? (.ok a : Except Errno α) = none := rfl

@[simp] theorem errno?_error {α : Type} (e : Errno) :
    errno? (.error e : Except Errno α) = some e := rfl

-- ============================================================== primitives

/-- The calls without their arguments. -/
inductive Primitive where
  | stat | lstat | fstatat | link | symlink | readlink | rename | unlink
  | remove | chmod | mkfifo | mkdir | utimensat | utime | getxattr | lgetxattr
  | openFile | read | close | opendir | readdir | closedir
  deriving DecidableEq, Repr

namespace Primitive

def name : Primitive → String
  | .stat => "stat"
  | .lstat => "lstat"
  | .fstatat => "fstatat"
  | .link => "link"
  | .symlink => "symlink"
  | .readlink => "readlink"
  | .rename => "rename"
  | .unlink => "unlink"
  | .remove => "remove"
  | .chmod => "chmod"
  | .mkfifo => "mkfifo"
  | .mkdir => "mkdir"
  | .utimensat => "utimensat"
  | .utime => "utime"
  | .getxattr => "getxattr"
  | .lgetxattr => "lgetxattr"
  | .openFile => "open"
  | .read => "read"
  | .close => "close"
  | .opendir => "opendir"
  | .readdir => "readdir"
  | .closedir => "closedir"

/-- Every primitive. -/
def all : List Primitive :=
  [.stat, .lstat, .fstatat, .link, .symlink, .readlink, .rename, .unlink, .remove,
   .chmod, .mkfifo, .mkdir, .utimensat, .utime, .getxattr, .lgetxattr, .openFile,
   .read, .close, .opendir, .readdir, .closedir]

/-- The primitive of the given name. -/
def ofName? (s : String) : Option Primitive :=
  all.find? (·.name = s)

theorem mem_all (p : Primitive) : p ∈ all := by
  cases p <;> decide

end Primitive

/-- Which primitive a call is. -/
def Call.primitive : Call → Primitive
  | .stat true _ => .stat
  | .stat false _ => .lstat
  | .fstatat .. => .fstatat
  | .link .. => .link
  | .symlink .. => .symlink
  | .readlink .. => .readlink
  | .rename .. => .rename
  | .unlink .. => .unlink
  | .remove .. => .remove
  | .chmod .. => .chmod
  | .mkfifo .. => .mkfifo
  | .mkdir .. => .mkdir
  | .utimensat .. => .utimensat
  | .utime .. => .utime
  | .getxattr true .. => .getxattr
  | .getxattr false .. => .lgetxattr
  | .openFile .. => .openFile
  | .read .. => .read
  | .close .. => .close
  | .opendir .. => .opendir
  | .readdir .. => .readdir
  | .closedir .. => .closedir

end PosixFiles
