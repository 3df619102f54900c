/-
Documents.

A document is read line by line into the tables that its lines add to; the
headers decide which table the keys below them belong to. Only the whole
text is a document or not: nothing is said about where it fails.
-/
import PosixFiles.Toml.Table
import PosixFiles.Toml.Text

namespace PosixFiles
namespace Toml

/-- A document is its outermost table. -/
structure Document where
  entries : List (String × Value)

-- ================================================================ values

/-- A key, the equals sign and a value on the same line. -/
def assignment? (value : Reader Value) : Reader (List String × Value) := fun s =>
  match key? s with
  | some (key, '=' :: rest) =>
      (value (skipSpace rest)).map fun (v, rest) => ((key, v), rest)
  | _ => none

/-- A table in braces, from its keys and values. -/
def braced? (assignments : List (List String × Value)) : Option Value :=
  (assignments.foldlM (fun entries a => put a.2 a.1 entries) []).map fun entries =>
    .table (finishedEntries entries)

/-- A value, in which brackets and braces go at most as deep as given. -/
def value? : (depth : Nat) → Reader Value
  | _, '"' :: rest => (string? ('"' :: rest)).map fun (s, rest) => (.string s, rest)
  | _, '\'' :: rest => (string? ('\'' :: rest)).map fun (s, rest) => (.string s, rest)
  | depth + 1, '[' :: rest =>
      (bracketed (value? depth) (skipTrivia false) ']' true rest).map fun (vs, rest) =>
        (.array vs, rest)
  | depth + 1, '\x7b' :: rest =>
      match bracketed (assignment? (value? depth)) skipSpace '\x7d' false rest with
      | some (assignments, rest) => (braced? assignments).map fun v => (v, rest)
      | none => none
  | _, s => scalar? s

-- ================================================================= lines

/-- What a line adds to a document. -/
inductive Line where
  | blank
  | assignment (key : List String) (v : Value)
  /-- The header of a table. -/
  | table (key : List String)
  /-- The header of an element of an array of tables. -/
  | element (key : List String)

/-- A line, as far as its last character that counts. -/
def lineBody? : Reader Line
  | [] => some (.blank, [])
  | '#' :: rest => some (.blank, '#' :: rest)
  | '\n' :: rest => some (.blank, '\n' :: rest)
  | '\r' :: rest => some (.blank, '\r' :: rest)
  | '[' :: '[' :: rest =>
      match key? rest with
      | some (key, ']' :: ']' :: rest) => some (.element key, rest)
      | _ => none
  | '[' :: rest =>
      match key? rest with
      | some (key, ']' :: rest) => some (.table key, rest)
      | _ => none
  | s =>
      (assignment? (value? (depthLimit - 1)) s).map fun ((key, v), rest) =>
        (.assignment key v, rest)

/-- A line with its end. -/
def line? : Reader Line := fun s =>
  match lineBody? (skipSpace s) with
  | some (line, rest) => (lineEnd? rest).map fun rest => (line, rest)
  | none => none

/-- The lines of a text. -/
def lines? (s : List Char) : Option (List Line) :=
  if s = [] then some []
  else match line? s with
    | some (line, rest) =>
        if _h : rest.length < s.length then (lines? rest).map (line :: ·) else none
    | none => none
termination_by s.length

-- ============================================================= documents

/-- The outermost table, and the way to the table to which the latest
header leads. -/
structure Draft where
  entries : Entries
  current : List String

/-- A draft with one more line. -/
def Draft.add (d : Draft) : Line → Option Draft
  | .blank => some d
  | .assignment key v =>
      (within (put v key) d.current d.entries).map fun entries => ⟨entries, d.current⟩
  | .table key => (openTable key d.entries).map fun entries => ⟨entries, key⟩
  | .element key => (openElement key d.entries).map fun entries => ⟨entries, key⟩

/-- A text without a byte order mark at its front. -/
def withoutMark : List Char → List Char
  | '\ufeff' :: rest => rest
  | rest => rest

/-- The document that a text writes down, if it is one. -/
def Document.ofText? (text : String) : Option Document := do
  let lines ← lines? (withoutMark text.toList)
  let draft ← lines.foldlM Draft.add ⟨[], []⟩
  some ⟨finishedEntries draft.entries⟩

end Toml
end PosixFiles
