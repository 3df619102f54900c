/-
Moving a file from one name to another.

A directory cannot be moved below itself, nor in the place of a directory
that it lies in. What is at the new name is replaced: a directory only by
a directory and only if it is empty, any other file by any other file.
-/
import PosixFiles.World.Delete

namespace PosixFiles
namespace World

variable (w : World)

/-- A directory and those above it, at most `steps` of them. -/
def lineageUpTo : Nat → Ino → List Ino
  | 0, i => [i]
  | steps + 1, i =>
      match w.directory? i with
      | some d => if d.parent = i then [i] else i :: lineageUpTo steps d.parent
      | none => [i]

/-- A directory and all those above it. -/
def lineage (i : Ino) : List Ino := w.lineageUpTo w.nodes.size i

/-- Changes the directory above a directory. -/
def reparent (i parent : Ino) : World :=
  w.modify i fun f =>
    match f.body with
    | .directory d => { f with body := .directory { d with parent := parent } }
    | _ => f

/-- Moves a name, nothing being in the way. -/
def move (oldDir : Ino) (oldName : Name) (newDir : Ino) (newName : Name) (i : Ino) : World :=
  (((w.leave oldDir oldName).enter newDir newName i).reparent i newDir).modify i fun f =>
    { f with ctime := w.now }

/-- Whether the file that is at the new name may be replaced. -/
def mayReplace (isDir : Bool) (target : Ino) : Except Refusal Unit :=
  if isDir && !w.isDirectory target then .error .notDirectory
  else if !isDir && w.isDirectory target then .error .isDirectory
  else .ok ()

/-- Moves the file `i` from one spot to another, once all that concerns
the spots alone is settled. -/
def relocate (oldDir : Ino) (oldName : Name) (newDir : Ino) (newName : Name)
    (i : Ino) (target : Option Ino) : Except Refusal World := do
  let isDir := w.isDirectory i
  w.mayEdit oldDir
  w.mayEdit newDir
  match target with
  | none => .ok ()
  | some t => w.mayReplace isDir t
  if isDir && oldDir ≠ newDir && !w.allows i .write then .error .denied
  else match target with
    | none => .ok (w.move oldDir oldName newDir newName i)
    | some t =>
        if (w.directory? t).any (·.entries ≠ []) then .error .notEmpty
        else .ok (((w.leave newDir newName).retire t).move oldDir oldName newDir newName i)

/-- Moves a file. Two names of one file are left as they are. -/
def rename (old new : Path) : Except Refusal World := do
  let source ← w.spot old
  let goal ← w.spot new
  match source.last, goal.last with
  | some oldName, some newName =>
      if oldName.isDots || newName.isDots then .error .busy
      else match ← w.lookup source.dir oldName with
        | none => .error .noEntry
        | some i => do
            let target ← w.lookup goal.dir newName
            if !w.isDirectory i && (source.slash || goal.slash) then .error .notDirectory
            else if (w.lineage goal.dir).contains i then .error .invalid
            else if target.any fun t => (w.lineage source.dir).contains t then .error .notEmpty
            else if target = some i then .ok w
            else w.relocate source.dir oldName goal.dir newName i target
  | _, _ => .error .busy

end World
end PosixFiles
