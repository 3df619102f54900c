/-
Calls that create: directories, links, fifos, and further names.

A new name needs a spot that ends in an ordinary name, with nothing there.
What is there already is noticed before permissions are looked at, so
creating something twice fails in the same way whether or not one might
have created it.
-/
import PosixFiles.World.Walk

namespace PosixFiles
namespace World

variable (w : World)

/-- The directory and the name for something new at the end of a path. A
slash after the name is only good for a directory. -/
def vacancy (p : Path) (forDirectory : Bool) : Except Refusal (Ino × Name) := do
  let s ← w.spot p
  match s.last with
  | none => .error .exists
  | some n =>
      if n.isDots then .error .exists
      else match ← w.lookup s.dir n with
        | some _ => .error .exists
        | none => if s.slash && !forDirectory then .error .noEntry else .ok (s.dir, n)

/-- Whether the process may change the names in a directory. -/
def mayEdit (dir : Ino) : Except Refusal Unit :=
  if w.allows dir .write && w.allows dir .search then .ok () else .error .denied

/-- A new file at the end of a path. Its contents may depend on the
directory it is in. -/
def create (p : Path) (forDirectory : Bool) (make : Ino → Body × UInt32) :
    Except Refusal World := do
  let (dir, n) ← w.vacancy p forDirectory
  w.mayEdit dir
  let (body, permissions) := make dir
  let (w', i) := w.addNode body permissions
  .ok (w'.enter dir n i)

/-- The permission bit that a directory hands on to directories created
in it. -/
def inheritedBit : UInt32 := 0o2000

/-- The bits of a mode that a new directory can get. -/
def directoryBits : UInt32 := 0o1777

/-- The permissions of a new directory in a given one. -/
def directoryPermissions (dir : Ino) (mode : UInt32) : UInt32 :=
  let handed := match w.nodes[dir]? with
    | some n => n.permissions &&& inheritedBit
    | none => 0
  (mode &&& directoryBits &&& ~~~w.mask) ||| handed

/-- Creates an empty directory. -/
def mkdir (p : Path) (mode : UInt32) : Except Refusal World :=
  w.create p true fun dir =>
    (.directory { parent := dir }, w.directoryPermissions dir mode)

/-- Creates a symbolic link. -/
def symlink (target p : Path) : Except Refusal World :=
  if h : target = [] then .error .noEntry
  else if hlen : target.length < pathMax then
    w.create p false fun _ => (.symlink ⟨target, h, hlen⟩, 0o777)
  else .error .nameTooLong

/-- Creates a fifo. A mode that asks for a file of another type as well
is refused before the path is looked at. -/
def mkfifo (p : Path) (mode : UInt32) : Except Refusal World :=
  let type := mode &&& FileType.mask
  if type = 0 ∨ type = FileType.bits .fifo then
    w.create p false fun _ => (.fifo, mode &&& permissionMask &&& ~~~w.mask)
  else .error .invalid

/-- Gives an existing file, which may be a symbolic link itself but not a
directory, a further name. A directory of somebody else is refused before
the place of the name is looked at. -/
def link (old new : Path) : Except Refusal World := do
  let i ← w.file false old
  let (dir, n) ← w.vacancy new false
  if w.isDirectory i && !w.isOwned i then .error .notPermitted
  w.mayEdit dir
  if w.isDirectory i then .error .notPermitted
  else .ok ((w.enter dir n i).modify i fun f => { f with ctime := w.now })

end World
end PosixFiles
