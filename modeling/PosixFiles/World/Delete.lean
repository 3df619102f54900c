/-
Calls that delete names: of files, and of empty directories.
-/
import PosixFiles.World.Create

namespace PosixFiles
namespace World

variable (w : World)

/-- Deletes the name of a file that is not a directory. -/
def unlink (p : Path) : Except Refusal World := do
  let s ← w.spot p
  match s.last with
  | none => .error .isDirectory
  | some n =>
      if n.isDots then .error .isDirectory
      else match ← w.lookup s.dir n with
        | none => .error .noEntry
        | some i =>
            if s.slash then
              .error (if w.isDirectory i then .isDirectory else .notDirectory)
            else do
              w.mayEdit s.dir
              if w.isDirectory i then .error .isDirectory
              else .ok ((w.leave s.dir n).modify i fun f => { f with ctime := w.now })

/-- Marks a directory as deleted. -/
def retire (i : Ino) : World :=
  w.modify i fun f =>
    match f.body with
    | .directory d => { f with body := .directory { d with deleted := true }, ctime := w.now }
    | _ => f

/-- Deletes an empty directory. -/
def rmdir (p : Path) : Except Refusal World := do
  let s ← w.spot p
  match s.last with
  | none => .error .busy
  | some n =>
      if n = Name.parent then .error .notEmpty
      else if n = Name.self then .error .invalid
      else match ← w.lookup s.dir n with
        | none => .error .noEntry
        | some i => do
            w.mayEdit s.dir
            match w.directory? i with
            | none => .error .notDirectory
            | some d =>
                if d.entries ≠ [] then .error .notEmpty
                else .ok ((w.leave s.dir n).retire i)

/-- Deletes a file, or an empty directory. The directory is tried only
after the path has turned out to be one. -/
def remove (p : Path) : Except Refusal World :=
  match w.unlink p with
  | .error .isDirectory => w.rmdir p
  | r => r

end World
end PosixFiles
