/-
Finding files by path.

A walk goes from directory to directory, one component at a time. Before
a name is looked up the directory has to be searchable. A symbolic link
on the way is replaced by its target, in front of the components that
remain; at most `linkMax` links are followed. The last component is
special: whether a link there is followed depends on the call, and on
whether a slash comes after it; and many calls want the directory and the
last name rather than the file.

So a walk ends at a `Spot`: the directory reached, the last component,
and whether a slash comes after it, in the path or in the target of the
link that led there. What the spot holds is looked up separately.
-/
import PosixFiles.World.Basic

namespace PosixFiles

/-- Where a walk ends. -/
structure Spot where
  dir : Ino
  /-- The last component; none where the path names the root. -/
  last : Option Name
  /-- Whether a slash demands a directory. -/
  slash : Bool
  deriving DecidableEq, Repr

namespace World

variable (w : World)

/-- What a name means in a directory, if it means anything. In a deleted
directory there are only the directory itself and the one above; every
other name is refused there, even one that is too long. -/
def lookup (dir : Ino) (n : Name) : Except Refusal (Option Ino) :=
  if n = Name.self then .ok (some dir)
  else if n = Name.parent then .ok ((w.directory? dir).map (·.parent))
  else if (w.directory? dir).any (·.deleted) then .error .noEntry
  else if nameMax < n.length then .error .nameTooLong
  else .ok ((w.directory? dir).bind (·.entries.lookup n))

/-- Where the target of a link found in a directory starts. -/
def startOf (dir : Ino) (p : Path) : Ino :=
  if p.isAbsolute then root else dir

/-- Goes along components up to the last one, or up to a link that has to
be followed; `onLink` goes on from there, given the directory of the link,
its target, and the components after it. -/
def advance (follow slash : Bool)
    (onLink : Ino → LinkTarget → List Name → Except Refusal Spot) :
    Ino → List Name → Except Refusal Spot
  | dir, [] => .ok ⟨dir, none, slash⟩
  | dir, n :: rest =>
      if !w.allows dir .search then .error .denied
      else if rest = [] ∧ !follow then .ok ⟨dir, some n, slash⟩
      else
        match w.lookup dir n with
        | .error e => .error e
        | .ok none => if rest = [] then .ok ⟨dir, some n, slash⟩ else .error .noEntry
        | .ok (some i) =>
            match w.body? i with
            | some (.symlink target) => onLink dir target rest
            | some (.directory _) =>
                if rest = [] then .ok ⟨dir, some n, slash⟩
                else advance follow slash onLink i rest
            | _ => if rest = [] then .ok ⟨dir, some n, slash⟩ else .error .notDirectory

/-- A walk along components that may still follow the given number of
links. Whether one at the end is followed depends on the slash after it.
-/
def walk (follow : Bool → Bool) : Nat → Bool → Ino → List Name → Except Refusal Spot
  | 0, slash, dir, names =>
      w.advance (follow slash) slash (fun _ _ _ => .error .tooManyLinks) dir names
  | links + 1, slash, dir, names =>
      w.advance (follow slash) slash
        (fun origin target rest =>
          walk follow links (if rest = [] then slash || target.path.endsInSlash else slash)
            (startOf origin target.path) (target.path.components ++ rest))
        dir names

/-- The spot that a path leads to from a directory. A path that is empty
leads nowhere. -/
def spotFrom (dir : Ino) (follow : Bool → Bool) (p : Path) : Except Refusal Spot :=
  if p = [] then .error .noEntry
  else if pathMax ≤ p.length then .error .nameTooLong
  else w.walk follow linkMax p.endsInSlash (startOf dir p) p.components

/-- The file at a spot, if there is one. -/
def fileAt (s : Spot) : Except Refusal (Option Ino) :=
  match s.last with
  | none => .ok (some s.dir)
  | some n => w.lookup s.dir n

/-- The file that a path leads to from a directory. A slash at the end
makes a link be followed, and demands a directory. -/
def fileFrom (dir : Ino) (follow : Bool) (p : Path) : Except Refusal Ino := do
  let s ← w.spotFrom dir (follow || ·) p
  match ← w.fileAt s with
  | none => .error .noEntry
  | some i => if s.slash && !w.isDirectory i then .error .notDirectory else .ok i

/-- The spot that a path leads to, a link at its end not followed. -/
def spot (p : Path) : Except Refusal Spot := w.spotFrom w.cwd (fun _ => false) p

/-- The file that a path leads to. -/
def file (follow : Bool) (p : Path) : Except Refusal Ino := w.fileFrom w.cwd follow p

end World
end PosixFiles
