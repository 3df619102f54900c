/-
Decimal numbers and floating-point numbers.

`Decimal.shortest?` gives the shortest decimal that reads back as a
floating-point number; of several the nearest to it, and of two that are
equally near the larger. A finite number is a whole multiple of a power of
two, and the numbers that round to it form an interval around it. The
coarsest decimal grid with a point in the interval has the shortest
numbers; on that grid one of the two neighbours of the number lies in the
interval. Everything is decided in whole numbers.

`Decimal.toFloat` rounds a decimal to the nearest floating-point number,
and `Decimal.positional` writes it with a point and without an exponent.
-/

namespace PosixFiles

/-- The number `digits * 10 ^ exponent`. -/
structure Decimal where
  digits : Nat
  exponent : Int
  deriving DecidableEq, Repr

namespace Decimal

-- =============================================================== reading

/-- The floating-point number nearest to a decimal; too large a decimal
becomes infinite. Decimals far outside the range are settled by their
magnitude alone. -/
def toFloat (d : Decimal) : Float :=
  let magnitude := (Nat.toDigits 10 d.digits).length + d.exponent
  if d.digits = 0 ∨ magnitude < -330 then 0.0
  else if 310 < magnitude then 1.0 / 0.0
  else if 0 ≤ d.exponent then Float.ofScientific d.digits false d.exponent.toNat
  else Float.ofScientific d.digits true (-d.exponent).toNat

-- ========================================================= shortest text

/-- A finite positive floating-point number `significand * 2 ^ exponent`. -/
structure Binary where
  significand : Nat
  exponent : Int
  /-- Whether the next smaller number is only half as far away as the next
  larger one. -/
  lopsided : Bool
  deriving DecidableEq, Repr

/-- A finite number other than zero, taken apart, without its sign. -/
def Binary.ofBits (bits : UInt64) : Binary :=
  let fraction := (bits &&& 0xfffffffffffff).toNat
  let exponent := ((bits >>> 52) &&& 0x7ff).toNat
  if exponent = 0 then ⟨fraction, -1074, false⟩
  else ⟨fraction + 0x10000000000000, (exponent : Int) - 1075, fraction = 0 && exponent ≠ 1⟩

/-- The point of the grid of multiples of `10 ^ exponent` that lies in the
interval of numbers rounding to `b`; of two the nearer to `b`, and the
larger if they are equally near.

All lengths are measured in quarters of a unit in the last place of `b`,
multiplied by what makes them whole. -/
def gridPoint? (b : Binary) (exponent : Int) : Option Nat :=
  let q := b.exponent - 2
  let scale := Nat.pow 2 q.toNat * Nat.pow 10 (-exponent).toNat
  let step := Nat.pow 2 (-q).toNat * Nat.pow 10 exponent.toNat
  let value := 4 * b.significand * scale
  let low := (4 * b.significand - (if b.lopsided then 1 else 2)) * scale
  let high := (4 * b.significand + 2) * scale
  let inside (n : Nat) : Bool :=
    if b.significand % 2 = 0 then low ≤ n * step && n * step ≤ high
    else low < n * step && n * step < high
  let below := value / step
  let above := below + 1
  match inside below && below ≠ 0, inside above with
  | true, true => some (if value - below * step < above * step - value then below else above)
  | true, false => some below
  | false, true => some above
  | false, false => none

/-- The exponents of the grids on which a floating-point number can have
its shortest decimal, the coarsest first. -/
def gridExponents : List Int :=
  (List.range 660).map fun n : Nat => 310 - (n : Int)

/-- The shortest decimal of a finite positive number. -/
def shortest? (b : Binary) : Option Decimal :=
  gridExponents.findSome? fun e => (gridPoint? b e).map fun n => ⟨n, e⟩

/-- A decimal written with a point, without an exponent, and with at least
one digit on either side of the point. -/
def positional (d : Decimal) : String :=
  let ds := Nat.toDigits 10 d.digits
  if 0 ≤ d.exponent then
    String.ofList (ds ++ List.replicate d.exponent.toNat '0' ++ ['.', '0'])
  else
    let places := (-d.exponent).toNat
    let padded := List.replicate (places + 1 - ds.length) '0' ++ ds
    let whole := padded.length - places
    String.ofList (padded.take whole ++ ['.'] ++ padded.drop whole)

/-- A floating-point number as the shortest decimal that reads back, with
a point and without an exponent. -/
def floatText (f : Float) : String :=
  if f.isNaN then "NaN"
  else
    let bits := f.toBits
    let sign := if bits >>> 63 = 0 then "" else "-"
    if f.isInf then sign ++ "inf"
    else if f == 0.0 then sign ++ "0.0"
    else match shortest? (Binary.ofBits bits) with
      | some d => sign ++ d.positional
      | none => sign ++ "0.0"

end Decimal
end PosixFiles
