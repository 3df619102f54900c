/-
Reading bytes as UTF-8 when they need not be valid.

`Utf8.pieces` cuts a byte string into the characters it encodes and the
broken parts in between. A broken part is as long as it can be while it
still begins some valid sequence (the "maximal subpart" of the Unicode
standard), so a truncated sequence is one broken part and a stray byte is
one of its own. `lossy` writes U+FFFD for each broken part.
-/
import PosixFiles.Bytes

namespace PosixFiles
namespace Utf8

/-- A stretch of bytes: one character, or a broken part. -/
inductive Piece where
  | char (c : Char)
  | broken (bytes : Bytes)
  deriving DecidableEq

/-- How many bytes follow a leading byte, with the range the first of
them must lie in; nothing for a byte that leads no sequence. -/
def follows (lead : UInt8) : Option (Nat × UInt8 × UInt8) :=
  if 0xc2 ≤ lead && lead ≤ 0xdf then some (1, 0x80, 0xbf)
  else if lead == 0xe0 then some (2, 0xa0, 0xbf)
  else if lead == 0xed then some (2, 0x80, 0x9f)
  else if 0xe1 ≤ lead && lead ≤ 0xef then some (2, 0x80, 0xbf)
  else if lead == 0xf0 then some (3, 0x90, 0xbf)
  else if 0xf1 ≤ lead && lead ≤ 0xf3 then some (3, 0x80, 0xbf)
  else if lead == 0xf4 then some (3, 0x80, 0x8f)
  else none

/-- A byte that may stand in second or later place of a sequence. -/
def isContinuation (b : UInt8) : Bool :=
  0x80 ≤ b && b ≤ 0xbf

/-- How many bytes of `rest` can continue a sequence that has `want`
bytes to come, the first of them between `low` and `high`. -/
def continued (want : Nat) (low high : UInt8) (rest : Bytes) : Nat :=
  match rest with
  | b :: more =>
      if want ≠ 0 && low ≤ b && b ≤ high then
        1 + ((more.take (want - 1)).takeWhile isContinuation).length
      else 0
  | [] => 0

/-- The scalar value of a whole sequence: the low bits of the leading
byte, then six bits from each byte after it. -/
def scalar (lead : UInt8) (tail : Bytes) : Nat :=
  let top := match tail.length with
    | 0 => lead.toNat
    | 1 => lead.toNat % 0x20
    | 2 => lead.toNat % 0x10
    | _ => lead.toNat % 0x08
  tail.foldl (fun n b => n * 0x40 + b.toNat % 0x40) top

/-- The piece at the front of `lead :: rest`, and how many bytes of
`rest` belong to it. -/
def front (lead : UInt8) (rest : Bytes) : Piece × Nat :=
  if lead < 0x80 then (.char (Char.ofNat lead.toNat), 0)
  else match follows lead with
    | none => (.broken [lead], 0)
    | some (want, low, high) =>
        let run := continued want low high rest
        let tail := rest.take run
        if run = want then (.char (Char.ofNat (scalar lead tail)), run)
        else (.broken (lead :: tail), run)

/-- The characters and broken parts of a byte string, in order. -/
def pieces : Bytes → List Piece
  | [] => []
  | lead :: rest =>
      let (piece, used) := front lead rest
      piece :: pieces (rest.drop used)
termination_by b => b.length
decreasing_by simp only [List.length_drop, List.length_cons]; omega

end Utf8

/-- The text of a byte string, with U+FFFD for each broken part. -/
def lossy (b : Bytes) : String :=
  String.ofList <| (Utf8.pieces b).map fun
    | .char c => c
    | .broken _ => '\uFFFD'

end PosixFiles
