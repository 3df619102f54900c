/-
Creating directories: one, or one with all its missing ancestors.

`mkdirs` looks at the target first and then walks back to the deepest
ancestor that exists; from there it creates what is missing, shortest path
first. Anybody else may be creating the same directories meanwhile: a
directory that is there when it is to be created is as good as one's own,
and only something else in its place is a failure. The single steps of
`mkdirs` are not repeated when they are interrupted.
-/
import PosixFiles.Operation.Basic

namespace PosixFiles
namespace System

variable {σ : Type} (S : System σ)

/-- Creates a directory. Tells whether it did: something that exists at
the path is no failure. -/
def mkdir (p : Path) (mode : UInt32) : Op σ Bool := do
  Op.requireNoNul (.path p) [p]
  match ← Op.persist S (.mkdir p mode) with
  | .ok () => pure true
  | .error e =>
      if e = .eexist then do
        Op.emit (.targetExists p)
        pure false
      else Op.fail (.ofErrno (.path p) e)

-- ================================================ with missing ancestors

/-- A status is what a directory was asked for; any other file in its
place is a failure. -/
def requireDirectory (p : Path) (s : Status) : Op σ Unit :=
  if s.isDirectory then pure () else Op.fail (.ofErrno (.path p) .enotdir)

/-- Walks from the deepest ancestor towards the root until one exists.
Gives the missing ones, shortest first, before those in `found`. -/
def missingAncestors : List Path → List Path → Op σ (List Path)
  | [], found => pure found
  | a :: shorter, found => do
      match ← Op.issue S (.stat true a) with
      | .ok _ => pure found
      | .error e =>
          if e = .enoent then missingAncestors shorter (a :: found)
          else Op.fail (.ofErrno (.path a) e)

/-- Creates ancestors in the order given. One that exists by now is left
alone. -/
def createAncestors (mode : UInt32) : List Path → Op σ Unit
  | [] => pure ()
  | a :: longer => do
      match ← Op.issue S (.mkdir a mode) with
      | .ok () => Op.emit (.parentCreated a)
      | .error e =>
          if e = .eexist then Op.emit (.parentAppeared a)
          else Op.fail (.ofErrno (.path a) e)
      createAncestors mode longer

/-- Creates the directory itself. Something that exists by now has to be
a directory. -/
def createTarget (p : Path) (mode : UInt32) : Op σ Unit := do
  match ← Op.issue S (.mkdir p mode) with
  | .ok () => Op.emit (.directoryCreated p)
  | .error e =>
      if e = .eexist then do
        let s ← Op.accept (.path p) (← Op.issue S (.stat true p))
        requireDirectory p s
      else Op.fail (.ofErrno (.path p) e)

/-- Creates a directory and every missing ancestor. -/
def mkdirs (p : Path) (mode : UInt32) : Op σ Unit := do
  Op.requireNoNul (.path p) [p]
  match ← Op.issue S (.stat true p) with
  | .ok s => requireDirectory p s
  | .error e =>
      if e = .enoent then do
        let missing ← missingAncestors S p.ancestors.reverse []
        createAncestors S mode missing
        createTarget S p mode
      else Op.fail (.ofErrno (.path p) e)

end System
end PosixFiles
