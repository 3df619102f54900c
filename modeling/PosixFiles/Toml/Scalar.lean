/-
Numbers, truth values, dates and times.

All of these are runs of letters, digits and a few marks. The longest such
run is taken and then has to be one of the written forms as a whole: what
ends a value is never a character of a run. Only a date may go on behind a
single space, with a time of day.
-/
import PosixFiles.Toml.Value

namespace PosixFiles
namespace Toml

/-- Characters of which numbers, truth values, dates and times consist. -/
def isScalarChar (c : Char) : Bool :=
  c.isAlphanum || c == '+' || c == '-' || c == '_' || c == '.' || c == ':'

-- =============================================================== numbers

/-- Digits without the underscores that may stand between any two. -/
def ungrouped (isDigit : Char → Bool) : List Char → Option (List Char)
  | [] => none
  | [c] => if isDigit c then some [c] else none
  | c :: '_' :: rest => if isDigit c then (ungrouped isDigit rest).map (c :: ·) else none
  | c :: rest => if isDigit c then (ungrouped isDigit rest).map (c :: ·) else none

/-- The value of a digit in any base up to sixteen. -/
def digitValue (c : Char) : Nat :=
  if c.isDigit then c.toNat - '0'.toNat
  else if 'a' ≤ c && c ≤ 'f' then c.toNat - 'a'.toNat + 10
  else c.toNat - 'A'.toNat + 10

/-- The number that digits denote in a base. -/
def ofDigits (base : Nat) (ds : List Char) : Nat :=
  ds.foldl (fun n d => n * base + digitValue d) 0

def isHexDigit (c : Char) : Bool :=
  c.isDigit || ('a' ≤ c && c ≤ 'f') || ('A' ≤ c && c ≤ 'F')

def isOctalDigit (c : Char) : Bool :=
  '0' ≤ c && c ≤ '7'

def isBinaryDigit (c : Char) : Bool :=
  c == '0' || c == '1'

/-- The digits of a decimal number without sign: no zero comes before
another digit. -/
def decimalDigits? (s : List Char) : Option (List Char) :=
  match ungrouped Char.isDigit s with
  | some ('0' :: _ :: _) => none
  | r => r

/-- A sign that may be missing, and what it applies to. -/
def signed : List Char → Bool × List Char
  | '+' :: rest => (false, rest)
  | '-' :: rest => (true, rest)
  | rest => (false, rest)

/-- An integer in base ten, or without a sign in base two, eight or
sixteen. -/
def integer? : List Char → Option Int
  | '0' :: 'x' :: ds => (ungrouped isHexDigit ds).map fun ds => Int.ofNat (ofDigits 16 ds)
  | '0' :: 'o' :: ds => (ungrouped isOctalDigit ds).map fun ds => Int.ofNat (ofDigits 8 ds)
  | '0' :: 'b' :: ds => (ungrouped isBinaryDigit ds).map fun ds => Int.ofNat (ofDigits 2 ds)
  | s =>
      let (negative, ds) := signed s
      (decimalDigits? ds).map fun ds =>
        if negative then -Int.ofNat (ofDigits 10 ds) else Int.ofNat (ofDigits 10 ds)

/-- Whether an integer has 64 bits. -/
def isWord (n : Int) : Bool :=
  Int64.minValue.toInt ≤ n && n ≤ Int64.maxValue.toInt

/-- The exponent that follows the letter `e`. -/
def exponent? (s : List Char) : Option Int :=
  let (negative, ds) := signed s
  (ungrouped Char.isDigit ds).map fun ds =>
    if negative then -Int.ofNat (ofDigits 10 ds) else Int.ofNat (ofDigits 10 ds)

/-- A number with a fraction or an exponent, or both, without its sign. -/
def decimal? (s : List Char) : Option Decimal := do
  let isExponent (c : Char) := c == 'e' || c == 'E'
  let (mantissa, tail) := s.span fun c => !isExponent c
  let (whole, fraction) := mantissa.span (· ≠ '.')
  let whole ← decimalDigits? whole
  let fraction ← match fraction with
    | [] => if tail = [] then none else some []
    | _ :: ds => ungrouped Char.isDigit ds
  let exponent ← match tail with
    | [] => some 0
    | _ :: e => exponent? e
  some ⟨ofDigits 10 (whole ++ fraction), exponent - fraction.length⟩

/-- A floating-point number. One that is too large for any is refused,
unless it is negative and becomes the lowest. -/
def float? (s : List Char) : Option Float :=
  let (negative, rest) := signed s
  let withSign (f : Float) := if negative then -f else f
  if rest = ['i', 'n', 'f'] then some (withSign (1.0 / 0.0))
  else if rest = ['n', 'a', 'n'] then some (withSign (0.0 / 0.0))
  else match decimal? rest with
    | none => none
    | some d => if d.toFloat.isInf && !negative then none else some (withSign d.toFloat)

-- ======================================================= dates and times

/-- A number of two digits in a range. -/
def twoDigits? (low high : Nat) (a b : Char) : Option Nat :=
  if a.isDigit && b.isDigit then
    let n := ofDigits 10 [a, b]
    if low ≤ n && n ≤ high then some n else none
  else none

/-- The days of a month. -/
def daysIn (year month : Nat) : Nat :=
  if month = 2 then
    if year % 4 = 0 ∧ (year % 100 ≠ 0 ∨ year % 400 = 0) then 29 else 28
  else if month = 4 ∨ month = 6 ∨ month = 9 ∨ month = 11 then 30
  else 31

/-- What follows a date at the front. -/
def afterDate? : List Char → Option (List Char)
  | y₁ :: y₂ :: y₃ :: y₄ :: '-' :: m₁ :: m₂ :: '-' :: d₁ :: d₂ :: rest => do
      let ys := [y₁, y₂, y₃, y₄]
      if !ys.all Char.isDigit then none
      let month ← twoDigits? 1 12 m₁ m₂
      let _ ← twoDigits? 1 (daysIn (ofDigits 10 ys) month) d₁ d₂
      some rest
  | _ => none

/-- What follows a time of day at the front. A minute may have a 61st
second. -/
def afterTime? : List Char → Option (List Char)
  | h₁ :: h₂ :: ':' :: m₁ :: m₂ :: ':' :: s₁ :: s₂ :: rest => do
      let _ ← twoDigits? 0 23 h₁ h₂
      let _ ← twoDigits? 0 59 m₁ m₂
      let _ ← twoDigits? 0 60 s₁ s₂
      match rest with
      | '.' :: fraction =>
          if (fraction.head?).any Char.isDigit then some (fraction.dropWhile Char.isDigit)
          else none
      | _ => some rest
  | _ => none

/-- Whether a text is nothing, or the distance of a time from the mean
time. -/
def isOffset : List Char → Bool
  | [] => true
  | ['Z'] | ['z'] => true
  | [sign, h₁, h₂, ':', m₁, m₂] =>
      (sign == '+' || sign == '-') && (twoDigits? 0 23 h₁ h₂).isSome
        && (twoDigits? 0 59 m₁ m₂).isSome
  | _ => false

/-- Whether a text is a time of day with its offset. -/
def isOffsetTime (s : List Char) : Bool :=
  (afterTime? s).any isOffset

/-- Whether a text is a date, a time of day without offset, or a date and
a time. -/
def isMoment (s : List Char) : Bool :=
  match afterDate? s with
  | some [] => true
  | some (c :: time) => (c == 'T' || c == 't') && isOffsetTime time
  | none => afterTime? s = some []

-- ============================================================== any scalar

/-- The value of a run as a whole. -/
def scalarOfRun? (run : List Char) : Option Value :=
  if run = ['t', 'r', 'u', 'e'] then some (.bool true)
  else if run = ['f', 'a', 'l', 's', 'e'] then some (.bool false)
  else if isMoment run then some (.moment (String.ofList run))
  else match integer? run with
    | some n => if isWord n then some (.integer n) else none
    | none => (float? run).map .float

/-- A number, a truth value, a date or a time at the front of a text. -/
def scalar? : Reader Value := fun s =>
  let (run, rest) := s.span isScalarChar
  let behindSpace : List Char × List Char := match rest with
    | ' ' :: more => more.span isScalarChar
    | _ => ([], [])
  if afterDate? run = some [] ∧ isOffsetTime behindSpace.1 then
    some (.moment (String.ofList (run ++ ' ' :: behindSpace.1)), behindSpace.2)
  else (scalarOfRun? run).map fun v => (v, rest)

end Toml
end PosixFiles
