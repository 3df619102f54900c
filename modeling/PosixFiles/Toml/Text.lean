/-
Strings and keys.

A string stands between quotation marks, in which a backslash begins an
escape, or between apostrophes, in which every character stands for
itself. Three marks instead of one let the string go over several lines: a
line end right after the opening marks is left out, the others count as
single line feeds, and one or two marks may stand before the closing
three.
-/
import PosixFiles.Toml.Scalar

namespace PosixFiles
namespace Toml

/-- The character of a Unicode escape: a scalar value in hexadecimal
digits. -/
def escapedScalar? (ds : List Char) : Option Char :=
  if ds.all isHexDigit then
    let n := ofDigits 16 ds
    if n.isValidChar then some (Char.ofNat n) else none
  else none

/-- The character that one letter after a backslash stands for. -/
def escapedChar? : Char → Option Char
  | 'b' => some '\x08'
  | 't' => some '\t'
  | 'n' => some '\n'
  | 'f' => some '\x0c'
  | 'r' => some '\r'
  | '"' => some '"'
  | '\\' => some '\\'
  | _ => none

/-- Adds a character to the front of what a reader read. -/
private def before (c : Option Char) (r : Option (List Char × List Char)) :
    Option (List Char × List Char) :=
  match c, r with
  | some c, some (cs, rest) => some (c :: cs, rest)
  | _, _ => none

/-- The rest of a string in quotation marks, on one line. -/
def basicRest? : List Char → Option (List Char × List Char)
  | [] => none
  | '"' :: rest => some ([], rest)
  | '\\' :: 'u' :: a :: b :: c :: d :: rest =>
      before (escapedScalar? [a, b, c, d]) (basicRest? rest)
  | '\\' :: 'U' :: a :: b :: c :: d :: e :: f :: g :: h :: rest =>
      before (escapedScalar? [a, b, c, d, e, f, g, h]) (basicRest? rest)
  | '\\' :: c :: rest => before (escapedChar? c) (basicRest? rest)
  | c :: rest => if isInline c && c ≠ '\\' then before (some c) (basicRest? rest) else none

/-- The rest of a string in apostrophes, on one line. -/
def literalRest? : List Char → Option (List Char × List Char)
  | [] => none
  | '\'' :: rest => some ([], rest)
  | c :: rest => if isInline c then before (some c) (literalRest? rest) else none

/-- Whether a line ends here, but for blanks. -/
def endsLine (s : List Char) : Bool :=
  match skipSpace s with
  | '\n' :: _ => true
  | '\r' :: '\n' :: _ => true
  | _ => false

/-- The marks that close a string of several lines: three, and up to two
before them that belong to it. -/
def closing? (mark : Char) : List Char → Option (List Char × List Char)
  | a :: b :: c :: rest =>
      if a = mark ∧ b = mark ∧ c = mark then
        match rest with
        | d :: rest' =>
            if d = mark then
              match rest' with
              | e :: rest'' => if e = mark then some ([mark, mark], rest'') else some ([mark], rest')
              | [] => some ([mark], [])
            else some ([], rest)
        | [] => some ([], [])
      else none
  | _ => none

/-- The rest of a string in quotation marks that may go over several
lines. While `skipping`, after a backslash at the end of a line, blanks
and line ends are left out. -/
def longBasicRest? (skipping : Bool) : List Char → Option (List Char × List Char)
  | [] => none
  | '\n' :: rest =>
      if skipping then longBasicRest? true rest else before (some '\n') (longBasicRest? false rest)
  | '\r' :: '\n' :: rest =>
      if skipping then longBasicRest? true rest else before (some '\n') (longBasicRest? false rest)
  | '"' :: rest =>
      match closing? '"' ('"' :: rest) with
      | some r => some r
      | none => before (some '"') (longBasicRest? false rest)
  | '\\' :: 'u' :: a :: b :: c :: d :: rest =>
      before (escapedScalar? [a, b, c, d]) (longBasicRest? false rest)
  | '\\' :: 'U' :: a :: b :: c :: d :: e :: f :: g :: h :: rest =>
      before (escapedScalar? [a, b, c, d, e, f, g, h]) (longBasicRest? false rest)
  | '\\' :: c :: rest =>
      if endsLine (c :: rest) then longBasicRest? true rest
      else before (escapedChar? c) (longBasicRest? false rest)
  | c :: rest =>
      if skipping && isSpace c then longBasicRest? true rest
      else if isInline c && c ≠ '\\' then before (some c) (longBasicRest? false rest)
      else none

/-- The rest of a string in apostrophes that may go over several lines. -/
def longLiteralRest? : List Char → Option (List Char × List Char)
  | [] => none
  | '\n' :: rest => before (some '\n') (longLiteralRest? rest)
  | '\r' :: '\n' :: rest => before (some '\n') (longLiteralRest? rest)
  | '\'' :: rest =>
      match closing? '\'' ('\'' :: rest) with
      | some r => some r
      | none => before (some '\'') (longLiteralRest? rest)
  | c :: rest => if isInline c then before (some c) (longLiteralRest? rest) else none

/-- A text without a line end at its front. -/
def withoutLineEnd : List Char → List Char
  | '\n' :: rest => rest
  | '\r' :: '\n' :: rest => rest
  | rest => rest

/-- A string on one line. -/
def shortString? : Reader String
  | '"' :: rest => (basicRest? rest).map fun r => (String.ofList r.1, r.2)
  | '\'' :: rest => (literalRest? rest).map fun r => (String.ofList r.1, r.2)
  | _ => none

/-- A string. -/
def string? : Reader String
  | '"' :: '"' :: '"' :: rest =>
      (longBasicRest? false (withoutLineEnd rest)).map fun r => (String.ofList r.1, r.2)
  | '\'' :: '\'' :: '\'' :: rest =>
      (longLiteralRest? (withoutLineEnd rest)).map fun r => (String.ofList r.1, r.2)
  | s => shortString? s

-- ================================================================== keys

/-- Characters of a key without marks. -/
def isBareKeyChar (c : Char) : Bool :=
  c.isAlphanum || c == '_' || c == '-'

/-- One part of a key. -/
def simpleKey? : Reader String := fun s =>
  match shortString? s with
  | some r => some r
  | none =>
      let (run, rest) := s.span isBareKeyChar
      if run = [] then none else some (String.ofList run, rest)

/-- The parts of a key with dots between them, blanks around each. -/
def keyParts? (s : List Char) : Option (List String × List Char) :=
  match simpleKey? (skipSpace s) with
  | none => none
  | some (part, rest) =>
      match skipSpace rest with
      | '.' :: more =>
          if _h : more.length < s.length then
            (keyParts? more).map fun r => (part :: r.1, r.2)
          else none
      | rest => some ([part], rest)
termination_by s.length

/-- Parts of a key, and brackets around a value, go less deep than this. -/
def depthLimit : Nat := 80

/-- A key of one or more parts. -/
def key? : Reader (List String) := fun s =>
  match keyParts? s with
  | some (parts, rest) => if parts.length < depthLimit then some (parts, rest) else none
  | none => none

end Toml
end PosixFiles
