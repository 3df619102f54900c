/-
A modelled file system, as one process without privileges sees it.

Files are numbered nodes. A directory lists names with the numbers of the
files they name, so a file may have several names; a directory also knows
the directory above it. Nodes are never taken away: a file without names
merely cannot be reached any more.

The process owns some of the nodes. On those the permissions of the owner
count, on all others the permissions of everybody else.
-/
import PosixFiles.Path
import PosixFiles.Status

namespace PosixFiles

/-- The number of a file. -/
abbrev Ino := Nat

-- ============================================================== refusals

/-- Why the file system refuses a call. -/
inductive Refusal where
  | notPermitted
  | noEntry
  | noDevice
  | badHandle
  | denied
  | busy
  | exists
  | notDirectory
  | isDirectory
  | invalid
  | outOfRange
  | nameTooLong
  | notEmpty
  | tooManyLinks
  | noData
  | notSupported
  | addressInUse
  deriving DecidableEq, Repr

/-- The code that reports a refusal. -/
def Refusal.errno : Refusal → Errno
  | .notPermitted => .eperm
  | .noEntry => .enoent
  | .noDevice => .enxio
  | .badHandle => .ebadf
  | .denied => .eacces
  | .busy => .ebusy
  | .exists => .eexist
  | .notDirectory => .enotdir
  | .isDirectory => .eisdir
  | .invalid => .einval
  | .outOfRange => .erange
  | .nameTooLong => .enametoolong
  | .notEmpty => .enotempty
  | .tooManyLinks => .eloop
  | .noData => .enodata
  | .notSupported => .enotsup
  | .addressInUse => .eaddrinuse

/-- No refusal is an interruption. -/
theorem Refusal.errno_ne_eintr (r : Refusal) : r.errno ≠ .eintr := by
  cases r <;> decide

/-- No refusal is a passing failure of a device. -/
theorem Refusal.errno_ne_eio (r : Refusal) : r.errno ≠ .eio := by
  cases r <;> decide

-- ================================================================ limits

/-- A path together with the NUL that ends it has at most this many
bytes. -/
def pathMax : Nat := 4096

/-- The longest name in a directory. -/
def nameMax : Nat := 255

/-- How many symbolic links are followed on the way along one path. -/
def linkMax : Nat := 40

/-- The longest name of an attribute. -/
def attributeNameMax : Nat := 255

-- ================================================================= nodes

/-- The target of a symbolic link: a path that is not empty and not too
long. -/
structure LinkTarget where
  path : Path
  path_ne_nil : path ≠ []
  length_lt : path.length < pathMax
  deriving DecidableEq

/-- What a directory holds. -/
structure Directory where
  /-- The directory above; the root is above itself. -/
  parent : Ino
  /-- The names in it, oldest first. -/
  entries : List (Name × Ino) := []
  /-- Whether the directory itself has been deleted; no name means
  anything in it then. -/
  deleted : Bool := false
  deriving DecidableEq

/-- The contents of a file, by kind. -/
inductive Body where
  | regular (content : Bytes)
  | directory (d : Directory)
  | symlink (target : LinkTarget)
  | fifo
  | socket
  deriving DecidableEq

/-- A file. -/
structure Node where
  body : Body
  /-- The permission bits. -/
  permissions : UInt32
  /-- Whether the file belongs to the process. -/
  owned : Bool := true
  /-- Extended attributes, by name. -/
  attributes : List (Bytes × Bytes) := []
  atime : Timespec := {}
  mtime : Timespec := {}
  ctime : Timespec := {}
  deriving DecidableEq

namespace Body

def fileType : Body → FileType
  | .regular _ => .regular
  | .directory _ => .directory
  | .symlink _ => .symlink
  | .fifo => .fifo
  | .socket => .socket

/-- The size that is reported. That of a directory says nothing. -/
def size : Body → Nat
  | .regular content => content.length
  | .symlink target => target.path.length
  | .directory _ | .fifo | .socket => 0

end Body

/-- What may be done with a file. -/
inductive Access where
  | read
  | write
  | search
  deriving DecidableEq, Repr

/-- The permission bit of an access for everybody else. -/
def Access.bit : Access → UInt32
  | .read => 0o4
  | .write => 0o2
  | .search => 0o1

/-- Whether the permissions of a file allow an access to the process. -/
def Node.allows (n : Node) (a : Access) : Bool :=
  if n.owned then n.permissions &&& (a.bit <<< 6) != 0
  else n.permissions &&& a.bit != 0

-- ================================================================= world

/-- All files, and what the file system knows of the process. -/
structure World where
  nodes : Array Node
  /-- The directory at which relative paths start. -/
  cwd : Ino
  /-- The permissions that new files do not get. -/
  mask : UInt32
  /-- The present moment. -/
  now : Timespec

namespace World

/-- The root directory. -/
def root : Ino := 0

/-- The contents of a file. -/
def body? (w : World) (i : Ino) : Option Body :=
  match w.nodes[i]? with
  | some n => some n.body
  | none => none

/-- The directory of the given number. -/
def directory? (w : World) (i : Ino) : Option Directory :=
  match w.body? i with
  | some (.directory d) => some d
  | _ => none

def isDirectory (w : World) (i : Ino) : Bool :=
  (w.directory? i).isSome

/-- Whether the process may use a file in a way. -/
def allows (w : World) (i : Ino) (a : Access) : Bool :=
  (w.nodes[i]?).any (·.allows a)

/-- Whether a file belongs to the process. -/
def isOwned (w : World) (i : Ino) : Bool :=
  (w.nodes[i]?).any (·.owned)

/-- The status of a file. -/
def status? (w : World) (i : Ino) : Option Status :=
  (w.nodes[i]?).map fun n =>
    { mode := n.body.fileType.bits ||| n.permissions
      atime := n.atime
      mtime := n.mtime
      ctime := n.ctime
      size := UInt64.ofNat n.body.size
      dev := 1
      ino := UInt64.ofNat i }

/-- Changes one file. -/
def modify (w : World) (i : Ino) (f : Node → Node) : World :=
  { w with nodes := w.nodes.modify i f }

/-- Changes the names in a directory, which counts as a modification of
the directory now. -/
def modifyEntries (w : World) (i : Ino) (f : List (Name × Ino) → List (Name × Ino)) : World :=
  w.modify i fun n =>
    match n.body with
    | .directory d =>
        { n with body := .directory { d with entries := f d.entries }
                 mtime := w.now, ctime := w.now }
    | _ => n

/-- A new file, and its number. It has no name yet. -/
def addNode (w : World) (body : Body) (permissions : UInt32) : World × Ino :=
  let n : Node := ⟨body, permissions, true, [], w.now, w.now, w.now⟩
  ({ w with nodes := w.nodes.push n }, w.nodes.size)

/-- Gives a file a name in a directory. -/
def enter (w : World) (dir : Ino) (name : Name) (i : Ino) : World :=
  w.modifyEntries dir (· ++ [(name, i)])

/-- Takes a name out of a directory. -/
def leave (w : World) (dir : Ino) (name : Name) : World :=
  w.modifyEntries dir (·.filter fun e => e.1 ≠ name)

end World
end PosixFiles
