/-
Byte strings, the raw material of paths, names and file contents, and
the cutting of a sequence at a separator.

A byte string is a list, so that every later module can take it apart by
recursion. `segments` cuts at every separator and keeps empty parts:
joining the parts again with the separator gives the sequence back
(`joined_segments`), and no part holds a separator
(`separator_not_mem_of_mem_segments`).
-/

namespace PosixFiles

/-- A string of bytes: a path, a name, or the contents of a file. -/
abbrev Bytes := List UInt8

namespace Bytes

/-- The UTF-8 bytes of a text. -/
def ofString (s : String) : Bytes :=
  s.toUTF8.data.toList

/-- The text that the bytes encode, if they are valid UTF-8. -/
def toString? (b : Bytes) : Option String :=
  String.fromUTF8? ⟨b.toArray⟩

/-- The byte that ends a string handed to the system. -/
def nul : UInt8 := 0

/-- The byte between the components of a path. -/
def slash : UInt8 := 0x2f

/-- The byte of a full stop. -/
def dot : UInt8 := 0x2e

/-- One hexadecimal digit in lower case. -/
def hexDigit (n : UInt8) : Char :=
  if n < 10 then Char.ofNat (0x30 + n.toNat) else Char.ofNat (0x57 + n.toNat)

/-- Two lower-case hexadecimal digits for every byte. -/
def toHex (b : Bytes) : String :=
  String.ofList (b.flatMap fun x : UInt8 => [hexDigit (x >>> 4), hexDigit (x &&& 0xf)])

/-- A buffer that nothing was read into yet. -/
def zeros (room : Nat) : Bytes :=
  List.replicate room 0

/-- A buffer after bytes were read into it: they stand at its front, and
behind them is what was there before. -/
def overwrite (buffer piece : Bytes) : Bytes :=
  piece ++ buffer.drop piece.length

/-- The front of a buffer is what was read into it last. -/
theorem take_overwrite (buffer piece : Bytes) :
    (overwrite buffer piece).take piece.length = piece :=
  List.take_left

/-- The order of byte strings: the first byte in which they differ
decides, and a string comes before all that go on after it. -/
def isLE : Bytes → Bytes → Bool
  | [], _ => true
  | _ :: _, [] => false
  | x :: a, y :: b => x < y || (x == y && isLE a b)

end Bytes

-- ============================================== cutting at a separator

variable {α : Type} [DecidableEq α]

/-- The parts of a sequence between the separators, empty parts
included: one part more than there are separators. -/
def segments (sep : α) : List α → List (List α)
  | [] => [[]]
  | c :: rest =>
      if c = sep then [] :: segments sep rest
      else match segments sep rest with
        | [] => [[c]]
        | part :: parts => (c :: part) :: parts

/-- The parts written one after the other with the separator between
them. -/
def joined (sep : α) : List (List α) → List α
  | [] => []
  | [part] => part
  | part :: next :: parts => part ++ sep :: joined sep (next :: parts)

/-- There is always a first part. -/
theorem segments_ne_nil (sep : α) (s : List α) : segments sep s ≠ [] := by
  induction s with
  | nil => simp [segments]
  | cons c rest ih =>
    simp only [segments]
    split
    · simp
    · split <;> simp

/-- Cutting and joining again changes nothing. -/
theorem joined_segments (sep : α) (s : List α) :
    joined sep (segments sep s) = s := by
  induction s with
  | nil => rfl
  | cons c rest ih =>
    have hne := segments_ne_nil sep rest
    simp only [segments]
    cases hs : segments sep rest with
    | nil => exact absurd hs hne
    | cons part parts =>
      rw [hs] at ih
      by_cases hc : c = sep
      · simp [hc, joined, ih]
      · cases parts <;> simp_all [joined]

/-- No part holds a separator. -/
theorem separator_not_mem_of_mem_segments {sep : α} {s part : List α}
    (h : part ∈ segments sep s) : sep ∉ part := by
  induction s generalizing part with
  | nil => simp_all [segments]
  | cons c rest ih =>
    simp only [segments] at h
    by_cases hc : c = sep
    · simp only [hc, ↓reduceIte, List.mem_cons] at h
      rcases h with rfl | h
      · simp
      · exact ih h
    · simp only [hc, ↓reduceIte] at h
      cases hs : segments sep rest with
      | nil => simp_all [Ne.symm hc]
      | cons first parts =>
        rw [hs] at h ih
        simp only [List.mem_cons] at h
        rcases h with rfl | h
        · have : sep ∉ first := ih (by simp)
          simp [Ne.symm hc, this]
        · exact ih (by simp [h])

end PosixFiles
