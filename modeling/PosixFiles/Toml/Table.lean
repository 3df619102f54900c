/-
Tables while a document is being read.

A document names its tables in three ways: by a header of their own, on
the way to something deeper in a header, and by a dotted key. How a table
came about decides what may still be added to it:

- a header names a table once, but may do so after deeper headers have
  passed through the table;
- a dotted key adds only to tables that dotted keys made, though it may
  pass through one that so far only headers passed through;
- the way of a header leads through every table, and through the last
  element of an array of tables;
- a value is never added to, be it a table in braces or an array in
  brackets.

A key stands where it first appeared, except that a header which names a
table passed through before moves it behind all others. No key appears
twice in a table.
-/
import PosixFiles.Toml.Value

namespace PosixFiles
namespace Toml

/-- How a table came about. -/
inductive Origin where
  | header
  /-- On the way of a header to something deeper. -/
  | passage
  /-- By a dotted key. -/
  | dotted
  deriving DecidableEq, Repr

/-- What a key of a table leads to. -/
inductive Node where
  | value (v : Value)
  | table (origin : Origin) (entries : List (String × Node))
  /-- An array of tables, the last of them first. -/
  | tables (elements : List (List (String × Node)))

/-- The keys of a table and what they lead to, in order. -/
abbrev Entries := List (String × Node)

/-- Replaces what a key leads to by what becomes of it; a new key comes
last. -/
def place (key : String) (become : Option Node → Option Node) : Entries → Option Entries
  | [] => (become none).map fun node => [(key, node)]
  | (k, node) :: rest =>
      if k = key then (become (some node)).map fun node => (k, node) :: rest
      else (place key become rest).map fun rest => (k, node) :: rest

/-- Changes the table to which a way of keys leads, as a header goes. -/
def within (change : Entries → Option Entries) : List String → Entries → Option Entries
  | [], entries => change entries
  | key :: way, entries =>
      place key (fun
        | none => (within change way []).map (.table .passage)
        | some (.table origin inner) => (within change way inner).map (.table origin)
        | some (.tables (last :: earlier)) =>
            (within change way last).map fun last => .tables (last :: earlier)
        | some (.tables []) => none
        | some (.value _) => none) entries

/-- Adds a value under a key that may be dotted. -/
def put (v : Value) : List String → Entries → Option Entries
  | [], _ => none
  | [key], entries =>
      place key (fun
        | none => some (.value v)
        | some _ => none) entries
  | key :: next :: more, entries =>
      place key (fun
        | none => (put v (next :: more) []).map (.table .dotted)
        | some (.table .dotted inner) => (put v (next :: more) inner).map (.table .dotted)
        | some (.table .passage inner) =>
            if more = [] then none else (put v (next :: more) inner).map (.table .passage)
        | some (.tables (last :: earlier)) =>
            if more = [] then none
            else (put v (next :: more) last).map fun last => .tables (last :: earlier)
        | some (.tables []) => none
        | some (.table .header _) => none
        | some (.value _) => none) entries

/-- Names a table by a header. It comes last, with the keys it has already
if headers passed through it before. -/
def announce (key : String) (entries : Entries) : Option Entries :=
  match entries.lookup key with
  | none => some (entries ++ [(key, .table .header [])])
  | some (.table .passage inner) =>
      some (entries.filter (fun e => e.1 ≠ key) ++ [(key, .table .header inner)])
  | some _ => none

/-- Adds the table that a header names. -/
def openTable (key : List String) (entries : Entries) : Option Entries :=
  match key.getLast? with
  | none => none
  | some last => within (announce last) key.dropLast entries

/-- Adds an element to the array of tables that a header names. -/
def openElement (key : List String) (entries : Entries) : Option Entries :=
  match key.getLast? with
  | none => none
  | some last =>
      within (place last fun
        | none => some (.tables [[]])
        | some (.tables elements) => some (.tables ([] :: elements))
        | some _ => none) key.dropLast entries

-- ======================================================== finished tables

mutual

/-- The value that a key of a finished table leads to. -/
def Node.finished : Node → Value
  | .value v => v
  | .table _ entries => .table (finishedEntries entries)
  | .tables elements => .array (finishedTables elements).reverse

/-- The keys and values of a finished table. -/
def finishedEntries : List (String × Node) → List (String × Value)
  | [] => []
  | (key, node) :: rest => (key, node.finished) :: finishedEntries rest

/-- Finished tables, one after the other. -/
def finishedTables : List (List (String × Node)) → List Value
  | [] => []
  | entries :: rest => .table (finishedEntries entries) :: finishedTables rest

end

end Toml
end PosixFiles
