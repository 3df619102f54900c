/-
Requests: every operation of this library as data, with its arguments.

`Files` holds a valid configuration and performs requests on any system.
Where a request says nothing about how much room there is to be, the
configuration decides; no other request depends on it. Since the
configuration is valid there always is some room then.
-/
import PosixFiles.Config
import PosixFiles.Operation.Attribute
import PosixFiles.Operation.Digest
import PosixFiles.Operation.Directory
import PosixFiles.Operation.Entry
import PosixFiles.Operation.Listing
import PosixFiles.Operation.Parameter

namespace PosixFiles

/-- An operation and its arguments. -/
inductive Request where
  | stat (follow : Bool) (path : Path)
  /-- A status, an ordinary failure being an answer as well. -/
  | statOutcome (follow : Bool) (path : Path)
  | link (old new : Path)
  | symlink (target link : Path)
  | readlink (path : Path)
  | rename (old new : Path)
  | unlink (path : Path)
  | remove (path : Path)
  | chmod (path : Path) (mode : UInt32)
  | mkfifo (path : Path) (mode : UInt32)
  | utime (path : Path) (now : Bool) (mtime : Int64)
  | mkdir (path : Path) (mode : UInt32)
  | mkdirs (path : Path) (mode : UInt32)
  | umask (mask : UInt32)
  | readDir (path : Path) (query : TypeQuery)
  | getxattr (follow : Bool) (path : Path) (name : Bytes) (room : Option Nat)
  | md5 (path : Path) (room : Option Nat)
  | systemParameter (name : String)
  deriving DecidableEq, Repr

/-- What a request gives when it succeeds. -/
@[reducible] def Request.Answer : Request → Type
  | .stat .. => Status
  | .statOutcome .. => StatOutcome
  | .link .. => Unit
  | .symlink .. => Unit
  | .readlink .. => Bytes
  | .rename .. => Unit
  | .unlink .. => Bool
  | .remove .. => Bool
  | .chmod .. => Unit
  | .mkfifo .. => Unit
  | .utime .. => Unit
  | .mkdir .. => Bool
  | .mkdirs .. => Unit
  | .umask .. => UInt32
  | .readDir .. => List Entry
  | .getxattr .. => Option Bytes
  | .md5 .. => Digest
  | .systemParameter .. => Int64

/-- Whoever performs requests: a valid configuration. -/
structure Files where
  config : Config := {}
  valid : config.Valid := by exact Config.valid_default

namespace Files

/-- Takes a configuration if it is valid. -/
def ofConfig (c : Config) : Except ConfigError Files :=
  match h : c.firstOutOfRange? with
  | none => .ok ⟨c, Config.firstOutOfRange?_eq_none_iff.1 h⟩
  | some s => .error (.outOfRange s (c.get s))

variable {σ : Type} (F : Files) (S : System σ)

/-- Performs a request on a system. -/
def perform : (r : Request) → Op σ r.Answer
  | .stat follow p => S.stat follow p
  | .statOutcome follow p => S.statOutcome follow p
  | .link old new => S.link old new
  | .symlink target p => S.symlink target p
  | .readlink p => S.readlink p
  | .rename old new => S.rename old new
  | .unlink p => S.unlink p
  | .remove p => S.remove p
  | .chmod p mode => S.chmod p mode
  | .mkfifo p mode => S.mkfifo p mode
  | .utime p now mtime => S.utime p now mtime
  | .mkdir p mode => S.mkdir p mode
  | .mkdirs p mode => S.mkdirs p mode
  | .umask mask => S.umask mask
  | .readDir p query => S.readDir p query
  | .getxattr follow p name room =>
      S.getxattr follow p name (room.getD F.config.xattrBufferSize)
  | .md5 p room => S.md5 p (room.getD F.config.digestChunkSize)
  | .systemParameter name => S.systemParameter name

end Files
end PosixFiles
