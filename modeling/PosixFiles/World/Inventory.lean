/-
The inventory of a world: every file below the working directory, with
what its owner can find out about it.

Rows come depth first, the names of a directory in the order of their
bytes. A directory that may not be listed, and an entry whose status may
not be had, get a row that says why.
-/
import PosixFiles.World.Content
import PosixFiles.World.Properties

namespace PosixFiles

/-- A row of an inventory. -/
inductive Row where
  /-- A file, with its target if it is a symbolic link. -/
  | file (path : Path) (status : Status) (target : Option Path)
  | refused (path : Path) (refusal : Refusal)

namespace World

variable (w : World)

/-- The names in a directory. -/
def namesIn (p : Path) : Except Refusal (List Name) :=
  match w.opendir p with
  | .ok (.entries _ es) => .ok ((((es.map (·.name)).filter fun n => !n.isDots).mergeSort Bytes.isLE))
  | .ok (.bytes _) => .ok []
  | .error r => .error r

/-- The row of one file, and whether it is a directory. -/
def rowOf (p : Path) : Row × Bool :=
  match w.file false p with
  | .error r => (.refused p r, false)
  | .ok i =>
      match w.status? i with
      | none => (.refused p .noEntry, false)
      | some st =>
          match w.body? i with
          | some (.symlink target) => (.file p st (some target.path), false)
          | _ => (.file p st none, st.isDirectory)

/-- The rows of all files below a directory, at most so many levels deep.
-/
def rowsBelow : (levels : Nat) → Path → List Row
  | 0, _ => []
  | levels + 1, dir =>
      match w.namesIn dir with
      | .error r => [.refused dir r]
      | .ok names =>
          names.flatMap fun n =>
            let p := Path.child dir n
            let (row, isDir) := w.rowOf p
            row :: if isDir then rowsBelow levels p else []

/-- The inventory. No path that the system accepts has more than
`pathMax` components. -/
def inventory : List Row := w.rowsBelow pathMax Name.self

end World
end PosixFiles
