/-
The bytes of a text.

A text is encoded character by character, so what is put together out of
texts is put together out of their bytes. A byte below 0x80 stands for
itself: no longer character has it among its bytes. This lets a text be cut
at such a character before it is encoded or after, with the same outcome.
-/
import PosixFiles.Bytes

namespace PosixFiles.Bytes

/-- The bytes of a sequence of characters. -/
def ofChars (cs : List Char) : Bytes :=
  cs.flatMap String.utf8EncodeChar

theorem ofString_ofList (cs : List Char) : ofString (String.ofList cs) = ofChars cs := by
  simp [ofString, ofChars, String.toUTF8, List.utf8Encode]

theorem ofString_eq (s : String) : ofString s = ofChars s.toList := by
  rw [← ofString_ofList, String.ofList_toList]

theorem ofChars_append (cs ds : List Char) : ofChars (cs ++ ds) = ofChars cs ++ ofChars ds :=
  List.flatMap_append

theorem ofChars_cons (c : Char) (cs : List Char) :
    ofChars (c :: cs) = String.utf8EncodeChar c ++ ofChars cs :=
  List.flatMap_cons

/-- Different texts have different bytes. -/
theorem ofChars_injective {cs ds : List Char} (h : ofChars cs = ofChars ds) : cs = ds := by
  rw [← ofString_ofList, ← ofString_ofList] at h
  have hbytes : (String.ofList cs).toByteArray = (String.ofList ds).toByteArray :=
    ByteArray.ext (Array.toList_inj.1 h)
  simpa using congrArg String.toList (String.toByteArray_inj.1 hbytes)

/-- Only an empty text has no bytes. -/
theorem ofChars_eq_nil {cs : List Char} : ofChars cs = [] ↔ cs = [] :=
  ⟨fun h => ofChars_injective h, fun h => h ▸ rfl⟩

-- ========================================================= single bytes

/-- A byte below 0x80 occurs in one character only, the one it stands for. -/
theorem mem_utf8EncodeChar {b : UInt8} (hb : b.toNat < 0x80) (c : Char) :
    b ∈ String.utf8EncodeChar c ↔ c.toNat = b.toNat := by
  have hc : c.toNat = c.val.toNat := rfl
  have hbyte : ∀ n, b = UInt8.ofNat n ↔ b.toNat = n % 256 := fun n => by
    rw [← UInt8.toNat_inj, UInt8.toNat_ofNat']
  unfold String.utf8EncodeChar
  dsimp only
  rw [hc]
  split
  · -- the byte is the character
    rw [List.mem_singleton, hbyte]
    omega
  · -- every byte of a longer character has its highest bit set
    split
    · simp only [List.mem_cons, List.not_mem_nil, or_false, hbyte]
      omega
    · split
      · simp only [List.mem_cons, List.not_mem_nil, or_false, hbyte]
        omega
      · simp only [List.mem_cons, List.not_mem_nil, or_false, hbyte]
        omega

/-- A byte below 0x80 occurs in the bytes of a text where its character
does. -/
theorem mem_ofChars {b : UInt8} (hb : b.toNat < 0x80) {c : Char} (hc : c.toNat = b.toNat)
    (cs : List Char) : b ∈ ofChars cs ↔ c ∈ cs := by
  unfold ofChars
  rw [List.mem_flatMap]
  constructor
  · rintro ⟨d, hd, hmem⟩
    have hsame : d = c := Char.toNat_inj.1 (((mem_utf8EncodeChar hb d).1 hmem).trans hc.symm)
    exact hsame ▸ hd
  · exact fun h => ⟨c, h, (mem_utf8EncodeChar hb c).2 hc⟩

/-- Parts that are joined by a character are encoded one by one. -/
theorem ofChars_joined {b : UInt8} {c : Char} (hc : String.utf8EncodeChar c = [b])
    (parts : List (List Char)) : ofChars (joined c parts) = joined b (parts.map ofChars) := by
  induction parts with
  | nil => rfl
  | cons part parts ih =>
      cases parts with
      | nil => rfl
      | cons next parts =>
          show ofChars (part ++ c :: joined c (next :: parts)) = _
          rw [ofChars_append, ofChars_cons, hc, ih]
          rfl

end PosixFiles.Bytes
