/-
Calls that change or read the properties of a file: permissions, times
and extended attributes.

Only the owner changes permissions and times. Attributes live in name
spaces, and the name space decides which files have them and whom they are
shown to. Those of the user belong to regular files and directories alone,
and reading them takes the permission to read the file. Those that modules
of security have set, and access lists, are shown to everybody; trusted
ones are shown to nobody without privileges.

The process only sets attributes of the user. A file may have others all the
same, from before or from somebody else. Access lists are no more than shown
here: what is allowed is a matter of the permission bits.
-/
import PosixFiles.Call
import PosixFiles.World.Walk

namespace PosixFiles
namespace World

variable (w : World)

/-- The file that a path leads to, if the process owns it. -/
def ownFile (p : Path) : Except Refusal Ino := do
  let i ← w.file true p
  if w.isOwned i then .ok i else .error .notPermitted

/-- Sets the permissions of a file. -/
def chmod (p : Path) (mode : UInt32) : Except Refusal World := do
  let i ← w.ownFile p
  .ok (w.modify i fun f => { f with permissions := mode &&& permissionMask, ctime := w.now })

/-- A time after it has been set. -/
def settled (t : TimeSetting) (old : Timespec) : Timespec :=
  match t with
  | .keep => old
  | .now => w.now
  | .set t => t

/-- Sets the times of a file. -/
def setTimes (p : Path) (atime mtime : TimeSetting) : Except Refusal World := do
  let i ← w.ownFile p
  .ok (w.modify i fun f =>
    { f with atime := w.settled atime f.atime
             mtime := w.settled mtime f.mtime
             ctime := w.now })

-- ============================================================ attributes

/-- The name space of an attribute. -/
inductive AttributeSpace where
  | user
  | trusted
  | security
  /-- One that nobody is kept from asking about. -/
  | system
  /-- One that is not known here; a file system may have it. -/
  | foreign
  deriving DecidableEq, Repr

/-- The name space of an attribute, and its name in it. -/
def attributeSpace (name : Bytes) : AttributeSpace × Bytes :=
  let within (space : AttributeSpace) (start : String) : Option (AttributeSpace × Bytes) :=
    let start := Bytes.ofString start
    if start.isPrefixOf name then some (space, name.drop start.length) else none
  ((within .user "user.").or
    ((within .trusted "trusted.").or
      ((within .security "security.").or (within .system "system.")))).getD (.foreign, name)

/-- The names of the lists that say more exactly than permissions who may
do what with a file, or with the files that will be created in it. -/
def isAccessList (name : Bytes) : Bool :=
  name = Bytes.ofString "system.posix_acl_access"
    || name = Bytes.ofString "system.posix_acl_default"

/-- Whether the file system has attributes of a name, though perhaps not at
every file. -/
def knowsAttribute (name : Bytes) : Bool :=
  match (attributeSpace name).1 with
  | .user | .trusted | .security => true
  | .system => isAccessList name
  | .foreign => false

/-- Whether a file can have attributes of the user. -/
def takesUserAttributes (i : Ino) : Bool :=
  match w.body? i with
  | some (.regular _) | some (.directory _) => true
  | _ => false

/-- Whether a file can have access lists. -/
def takesAccessLists (i : Ino) : Bool :=
  match w.body? i with
  | some (.symlink _) => false
  | _ => true

/-- Whether the process may ask a file for an attribute. Where nobody, or
nobody without privileges, would be told of one, none seems to be there. -/
def mayAsk (i : Ino) (name : Bytes) : Except Refusal Unit :=
  let (space, tail) := attributeSpace name
  match space with
  | .user =>
      if !w.takesUserAttributes i then .error .noData
      else if !w.allows i .read then .error .denied
      else if tail = [] then .error .invalid
      else .ok ()
  | .trusted => .error .noData
  | .security => if tail = [] then .error .invalid else .ok ()
  | .system =>
      if isAccessList name && !w.takesAccessLists i then .error .notSupported else .ok ()
  | .foreign => if w.allows i .read then .ok () else .error .denied

/-- The value that a file has for an attribute. -/
def attributeOf? (i : Ino) (name : Bytes) : Option Bytes :=
  (w.nodes[i]?).bind (·.attributes.lookup name)

/-- The value of an attribute, for a process that may ask for it. -/
def askAttribute (follow : Bool) (p : Path) (name : Bytes) : Except Refusal Bytes := do
  if name = [] ∨ attributeNameMax < name.length then .error .outOfRange
  else do
    let i ← w.file follow p
    w.mayAsk i name
    match w.attributeOf? i name with
    | some value => .ok value
    | none => .error (if knowsAttribute name then .noData else .notSupported)

/-- The value of an attribute, if it fits the given number of bytes. -/
def getxattr (follow : Bool) (p : Path) (name : Bytes) (room : Nat) : Except Refusal Bytes := do
  let value ← w.askAttribute follow p name
  if room < value.length then .error .outOfRange else .ok value

/-- Gives a file an attribute of the user. -/
def setxattr (p : Path) (name value : Bytes) : Except Refusal World := do
  if name = [] ∨ attributeNameMax < name.length then .error .outOfRange
  else do
    let i ← w.file true p
    let (space, tail) := attributeSpace name
    let writable := w.allows i .write
    match space with
    | .trusted => .error .notPermitted
    | .security => .error .notPermitted
    | .system => .error .notSupported
    | .foreign => if writable then .error .notSupported else .error .denied
    | .user =>
        if !w.takesUserAttributes i then .error .notPermitted
        else if !writable then .error .denied
        else if tail = [] then .error .invalid
        else .ok (w.modify i fun f =>
          { f with attributes := (f.attributes.filter fun a => a.1 ≠ name) ++ [(name, value)]
                   ctime := w.now })

end World
end PosixFiles
