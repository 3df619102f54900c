/-
Numeric system parameters, looked up by dotted name.

The parts of a name between the dots are the components of a path below
`/proc/sys`. A name with an empty part or a slash is refused, so no part
is one of the names that lead elsewhere and the path cannot leave that
directory. The file holds one number as text, with white space around it.
-/
import PosixFiles.Operation.Basic
import PosixFiles.Text.Blank

namespace PosixFiles
namespace Parameter

/-- The directory that holds the parameters. -/
def directory : String := "/proc/sys"

/-- The parts of a dotted name. -/
def parts (name : String) : List (List Char) :=
  segments '.' name.toList

/-- Whether a name has only non-empty parts and no slash. -/
def isName (name : String) : Bool :=
  !name.toList.contains '/' && (parts name).all (· ≠ [])

/-- The file of the parameter with the given name, if it is a name. -/
def path? (name : String) : Option Path :=
  if isName name then
    some (Bytes.ofString (directory ++ "/" ++ String.ofList (joined '/' (parts name))))
  else none

/-- The number that decimal digits denote. -/
def ofDigits (ds : List Char) : Nat :=
  ds.foldl (fun n d => 10 * n + (d.toNat - '0'.toNat)) 0

/-- A number without its sign: one or more decimal digits. -/
def magnitude? (ds : List Char) : Option Nat :=
  if ds ≠ [] ∧ ds.all Char.isDigit then some (ofDigits ds) else none

/-- An integer: digits with at most one sign before them. -/
def integer? : List Char → Option Int
  | '+' :: ds => (magnitude? ds).map Int.ofNat
  | '-' :: ds => (magnitude? ds).map fun n => -Int.ofNat n
  | ds => (magnitude? ds).map Int.ofNat

/-- The value that the text of a parameter stands for: an integer of 64
bits with white space around it. -/
def value? (text : String) : Option Int64 :=
  match integer? (trimmed text.toList) with
  | some n =>
      if Int64.minValue.toInt ≤ n ∧ n ≤ Int64.maxValue.toInt then some (Int64.ofInt n) else none
  | none => none

end Parameter

namespace System

variable {σ : Type} (S : System σ)

/-- The most that a single read transfers. -/
def wholeRoom : Nat := 0x7ffff000

/-- Reads an open file to its end. -/
def contentsFrom (file : Handle) (s : σ) : Except Errno Bytes × σ :=
  let r := S.persist (.read file wholeRoom) s
  match _h : r.1 with
  | .error e => (.error e, r.2)
  | .ok piece =>
      if _hp : piece = [] then (.ok [], r.2)
      else
        let rest := contentsFrom file r.2
        (rest.1.map (piece ++ ·), rest.2)
termination_by S.patience s
decreasing_by exact S.patience_persist_read _h _hp

/-- The contents of a file. Whether closing it succeeds is of no
interest. -/
def contents (subject : Subject) (p : Path) : Op σ Bytes := do
  if p.hasNul then Op.fail ⟨subject, .nulInFileName⟩
  let file ← Op.accept subject (← Op.persist S (.openFile p))
  let read ← fun s => ⟨.ok (S.contentsFrom file s).1, [], (S.contentsFrom file s).2⟩
  let _ ← Op.issue S (.close file)
  Op.accept subject read

/-- The value of a system parameter. -/
def systemParameter (name : String) : Op σ Int64 := do
  match Parameter.path? name with
  | none => Op.fail (.ofErrno (.named name) .einval)
  | some p => do
      let bytes ← contents S (.named name) p
      match bytes.toString? with
      | none => Op.fail ⟨.named name, .invalidText⟩
      | some text =>
          match Parameter.value? text with
          | none => Op.fail (.ofErrno (.named name) .einval)
          | some v => pure v

end System
end PosixFiles
