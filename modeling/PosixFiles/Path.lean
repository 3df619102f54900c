/-
Paths as the system reads them: components between slashes, and the
proper ancestors of a path.

Runs of slashes count once. An ancestor ends before a slash that follows a
component and that some later component follows in turn; so trailing
slashes change nothing and the root is never an ancestor.
-/
import PosixFiles.Bytes

namespace PosixFiles

/-- A path: any bytes, as the caller gave them. -/
abbrev Path := Bytes

/-- The name of an entry of a directory. -/
abbrev Name := Bytes

namespace Name

/-- The name by which a directory lists itself. -/
def self : Name := [Bytes.dot]

/-- The name by which a directory lists its parent. -/
def parent : Name := [Bytes.dot, Bytes.dot]

/-- Whether a name is one of the two that every directory lists. -/
def isDots (n : Name) : Bool :=
  n == self || n == parent

end Name

namespace Path

/-- The components of a path: what stands between the slashes, empty
parts left out. -/
def components (p : Path) : List Name :=
  (segments Bytes.slash p).filter (· ≠ [])

/-- Whether a path starts at the root. -/
def isAbsolute (p : Path) : Bool :=
  p.head? == some Bytes.slash

/-- Whether a slash ends the path. -/
def endsInSlash (p : Path) : Bool :=
  p.getLast? == some Bytes.slash

/-- Whether a path holds a NUL byte, and so cannot be handed to the
system. -/
def hasNul (p : Path) : Bool :=
  p.contains Bytes.nul

/-- The offsets, counted from `offset`, of the slashes that follow a
component and have another component after them. `inName` tells whether
the byte before belongs to a component. -/
def boundariesFrom (offset : Nat) (inName : Bool) : Bytes → List Nat
  | [] => []
  | c :: rest =>
      if c = Bytes.slash then
        if inName && rest.any (· ≠ Bytes.slash) then
          offset :: boundariesFrom (offset + 1) false rest
        else boundariesFrom (offset + 1) false rest
      else boundariesFrom (offset + 1) true rest

/-- The offsets at which the proper ancestors of a path end, shortest
ancestor first. -/
def boundaries (p : Path) : List Nat :=
  boundariesFrom 0 false p

/-- The proper ancestors of a path, shortest first, each with the slashes
it has in the path. -/
def ancestors (p : Path) : List Path :=
  p.boundaries.map p.take

/-- The path of an entry in a directory; the working directory is left
out. -/
def child (dir : Path) (n : Name) : Path :=
  if dir = Name.self then n else dir ++ Bytes.slash :: n

end Path
end PosixFiles
