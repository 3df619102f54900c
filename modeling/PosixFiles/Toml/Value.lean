/-
Values of a TOML document, and readers.
-/
import PosixFiles.Decimal

namespace PosixFiles
namespace Toml

/-- A value in a document. -/
inductive Value where
  | string (s : String)
  | integer (n : Int)
  | float (f : Float)
  | bool (b : Bool)
  /-- A date, a time of day, or both, as written. -/
  | moment (text : String)
  | array (items : List Value)
  /-- A table: keys with their values, in the order in which the keys first
  appear. -/
  | table (entries : List (String × Value))

/-- A reader takes something off the front of a text, or refuses it. -/
abbrev Reader (α : Type) := List Char → Option (α × List Char)

/-- The space and the tab, the only blanks within a line. -/
def isSpace (c : Char) : Bool :=
  c == ' ' || c == '\t'

/-- Characters that may stand in a comment, and in quotation marks but for
the marks and the backslash: the tab and all but the control characters. -/
def isInline (c : Char) : Bool :=
  c == '\t' || (' ' ≤ c && c ≤ '~') || '\x80' ≤ c

/-- A text without the blanks at its front. -/
def skipSpace (s : List Char) : List Char :=
  s.dropWhile isSpace

/-- A text without the blanks, line ends and comments at its front. A
carriage return counts only as part of a line end, and a control character
ends a comment without ending the line. -/
def skipTrivia (inComment : Bool) : List Char → List Char
  | [] => []
  | '\n' :: rest => skipTrivia false rest
  | '\r' :: rest => if rest.head? = some '\n' then skipTrivia false rest else '\r' :: rest
  | c :: rest =>
      if inComment then
        if isInline c then skipTrivia true rest else c :: rest
      else if isSpace c then skipTrivia false rest
      else if c = '#' then skipTrivia true rest
      else c :: rest

/-- What follows the end of a line, if nothing but blanks and a comment
comes before it. The end of the text ends a line as well. -/
def lineEnd? (s : List Char) : Option (List Char) :=
  let afterComment : List Char → Option (List Char)
    | [] => some []
    | '\n' :: rest => some rest
    | '\r' :: '\n' :: rest => some rest
    | _ => none
  match skipSpace s with
  | '#' :: rest => afterComment (rest.dropWhile isInline)
  | rest => afterComment rest

/-- One or more items with commas between them, up to the closing
character. `skip` leaves out what may stand around items; `trailing`
allows a comma after the last one. -/
def items {α : Type} (item : Reader α) (skip : List Char → List Char) (close : Char)
    (trailing : Bool) (s : List Char) : Option (List α × List Char) :=
  match item s with
  | none => none
  | some (a, rest) =>
      match skip rest with
      | [] => none
      | c :: more =>
          if c = close then some ([a], more)
          else if c = ',' then
            let next := skip more
            if trailing && next.head? = some close then some ([a], next.tail)
            else if _h : next.length < s.length then
              (items item skip close trailing next).map fun r => (a :: r.1, r.2)
            else none
          else none
termination_by s.length

/-- Any number of items between brackets; the opening one has been read. -/
def bracketed {α : Type} (item : Reader α) (skip : List Char → List Char) (close : Char)
    (trailing : Bool) (s : List Char) : Option (List α × List Char) :=
  let s := skip s
  if s.head? = some close then some ([], s.tail) else items item skip close trailing s

end Toml
end PosixFiles
