/-
The value of a system parameter, and what its file holds.

# Integers as texts

`Parameter.Writes` says what writes an integer down: one or more decimal
digits, however many zeros they begin with, and at most one sign before
them. `Parameter.Holds` allows white space on both sides of that. A text
holds at most one integer, which is what the reader finds in it
(`holds_iff`); only then does it matter whether the integer has 64 bits, so
one that has more is never taken for another.

# Files

The file of a parameter may be read in any pieces, with interruptions
between them, and they may end in the midst of a character: only what they
come to counts (`System.contentsFrom_of_supplies`).
`System.systemParameter_is_exact` puts the two together.
-/
import PosixFiles.Proofs.Digest.Reading
import PosixFiles.Proofs.Interruption.Operation
import PosixFiles.Proofs.Operation.Parameter
import PosixFiles.Proofs.Toml.Numeral

namespace PosixFiles

-- =========================================================== white space

/-- What is removed at the ends is white space. -/
theorem exists_append_trimmed (cs : List Char) :
    ∃ u w, cs = u ++ trimmed cs ++ w ∧ (∀ c ∈ u, isBlank c = true)
      ∧ ∀ c ∈ w, isBlank c = true := by
  have hfront : cs = cs.takeWhile isBlank ++ cs.dropWhile isBlank :=
    List.takeWhile_append_dropWhile.symm
  generalize hmiddle : cs.dropWhile isBlank = middle at hfront
  have hback : middle = trimmed cs ++ (middle.reverse.takeWhile isBlank).reverse := by
    rw [trimmed, hmiddle, ← List.reverse_append, List.takeWhile_append_dropWhile,
      List.reverse_reverse]
  have hblank : ∀ {ds : List Char}, ∀ c ∈ ds.takeWhile isBlank, isBlank c = true :=
    List.all_eq_true.1 List.all_takeWhile
  refine ⟨cs.takeWhile isBlank, (middle.reverse.takeWhile isBlank).reverse, ?_, hblank,
    fun c hc => hblank c (List.mem_reverse.1 hc)⟩
  rw [List.append_assoc, ← hback]
  exact hfront

/-- What has no white space in it is left. -/
theorem trimmed_append {u lit w : List Char} (hne : lit ≠ [])
    (hlit : ∀ c ∈ lit, isBlank c = false) (hu : ∀ c ∈ u, isBlank c = true)
    (hw : ∀ c ∈ w, isBlank c = true) : trimmed (u ++ lit ++ w) = lit := by
  have hstop : ∀ {ds : List Char}, ds ≠ [] → (∀ c ∈ ds, isBlank c = false) →
      ∀ rest, (ds ++ rest).dropWhile isBlank = ds ++ rest := by
    intro ds hds hdark rest
    obtain ⟨d, ds, rfl⟩ := List.exists_cons_of_ne_nil hds
    exact List.dropWhile_cons_of_neg (by simp [hdark d (List.mem_cons_self ..)])
  have hend : lit.reverse.dropWhile isBlank = lit.reverse := by
    have hstopped := hstop (List.reverse_ne_nil_iff.2 hne)
      (fun c hc => hlit c (List.mem_reverse.1 hc)) []
    rwa [List.append_nil] at hstopped
  rw [trimmed, List.append_assoc, List.dropWhile_append_of_pos hu, hstop hne hlit,
    List.reverse_append,
    List.dropWhile_append_of_pos fun c hc => hw c (List.mem_reverse.1 hc), hend,
    List.reverse_reverse]

theorem isBlank_of_isDigit {c : Char} (hc : c.isDigit = true) : isBlank c = false := by
  have hrange : 48 ≤ c.toNat ∧ c.toNat ≤ 57 := by
    rw [Char.isDigit, Bool.and_eq_true, decide_eq_true_iff, decide_eq_true_iff] at hc
    exact hc
  simp only [isBlank, Bool.or_eq_false_iff, Bool.and_eq_false_iff, decide_eq_false_iff_not,
    beq_eq_false_iff_ne]
  omega

-- ============================================================== integers

namespace Parameter

open Toml (IsNumeral isNumeral_toDigits)

/-- What writes an integer: decimal digits, with at most one sign before
them. -/
inductive Writes : List Char → Int → Prop where
  | plain {ds : List Char} (h : IsNumeral ds) : Writes ds (Nat.ofDigitChars 10 ds 0)
  | plus {ds : List Char} (h : IsNumeral ds) : Writes ('+' :: ds) (Nat.ofDigitChars 10 ds 0)
  | minus {ds : List Char} (h : IsNumeral ds) : Writes ('-' :: ds) (-Nat.ofDigitChars 10 ds 0)

/-- A text that is an integer, but for white space at its ends. -/
def Holds (text : List Char) (n : Int) : Prop :=
  ∃ u lit w, text = u ++ lit ++ w ∧ (∀ c ∈ u, isBlank c = true) ∧ (∀ c ∈ w, isBlank c = true)
    ∧ Writes lit n

theorem magnitude?_eq_some_iff {ds : List Char} {n : Nat} :
    magnitude? ds = some n ↔ IsNumeral ds ∧ Nat.ofDigitChars 10 ds 0 = n := by
  have hvalue : ofDigits ds = Nat.ofDigitChars 10 ds 0 := Nat.ofDigitChars_eq_foldl.symm
  unfold magnitude?
  rw [Option.ite_none_right_eq_some, hvalue, Option.some.injEq, List.all_eq_true]
  exact and_congr_left fun _ => ⟨fun h => ⟨h.1, h.2⟩, fun h => ⟨h.ne_nil, h.isDigit⟩⟩

/-- The reader takes what writes an integer, and nothing else. -/
theorem integer?_eq_some_iff {cs : List Char} {n : Int} :
    integer? cs = some n ↔ Writes cs n := by
  constructor
  · intro h
    unfold integer? at h
    split at h
    · obtain ⟨m, hm, rfl⟩ := Option.map_eq_some_iff.1 h
      obtain ⟨hds, rfl⟩ := magnitude?_eq_some_iff.1 hm
      exact .plus hds
    · obtain ⟨m, hm, rfl⟩ := Option.map_eq_some_iff.1 h
      obtain ⟨hds, rfl⟩ := magnitude?_eq_some_iff.1 hm
      exact .minus hds
    · obtain ⟨m, hm, rfl⟩ := Option.map_eq_some_iff.1 h
      obtain ⟨hds, rfl⟩ := magnitude?_eq_some_iff.1 hm
      exact .plain hds
  · intro h
    cases h with
    | plus hds => rw [integer?, magnitude?_eq_some_iff.2 ⟨hds, rfl⟩]; rfl
    | minus hds => rw [integer?, magnitude?_eq_some_iff.2 ⟨hds, rfl⟩]; rfl
    | plain hds =>
        unfold integer?
        split
        · exact absurd (List.mem_cons_self ..) (hds.not_mem (c := '+') rfl)
        · exact absurd (List.mem_cons_self ..) (hds.not_mem (c := '-') rfl)
        · rw [magnitude?_eq_some_iff.2 ⟨hds, rfl⟩]
          rfl

/-- What writes an integer has no white space in it. -/
theorem Writes.isBlank_eq_false {cs : List Char} {n : Int} (h : Writes cs n) :
    cs ≠ [] ∧ ∀ c ∈ cs, isBlank c = false := by
  cases h with
  | plain hds => exact ⟨hds.ne_nil, fun c hc => isBlank_of_isDigit (hds.isDigit c hc)⟩
  | plus hds =>
      exact ⟨List.cons_ne_nil _ _, List.forall_mem_cons.2
        ⟨by decide, fun c hc => isBlank_of_isDigit (hds.isDigit c hc)⟩⟩
  | minus hds =>
      exact ⟨List.cons_ne_nil _ _, List.forall_mem_cons.2
        ⟨by decide, fun c hc => isBlank_of_isDigit (hds.isDigit c hc)⟩⟩

/-- The integer that a text holds is the one that is read from it. -/
theorem holds_iff {text : List Char} {n : Int} :
    Holds text n ↔ integer? (trimmed text) = some n := by
  constructor
  · rintro ⟨u, lit, w, rfl, hu, hw, hlit⟩
    obtain ⟨hne, hdark⟩ := hlit.isBlank_eq_false
    rw [trimmed_append hne hdark hu hw]
    exact integer?_eq_some_iff.2 hlit
  · intro h
    obtain ⟨u, w, htext, hu, hw⟩ := exists_append_trimmed text
    exact ⟨u, _, w, htext, hu, hw, integer?_eq_some_iff.1 h⟩

/-- A text holds one integer at most. -/
theorem Holds.unique {text : List Char} {m n : Int} (hm : Holds text m) (hn : Holds text n) :
    m = n :=
  Option.some.inj ((holds_iff.1 hm).symm.trans (holds_iff.1 hn))

/-- The decimal form of an integer writes it. -/
theorem writes_toString (n : Int) : Writes (toString n).toList n := by
  have hdigits : ∀ m : Nat, (toString m).toList = Nat.toDigits 10 m := fun m => by
    rw [Nat.toString_eq_ofList_toDigits, String.toList_ofList]
  have hvalue : ∀ m : Nat, Nat.ofDigitChars 10 (Nat.toDigits 10 m) 0 = m :=
    fun m => Nat.ofDigitChars_ten_toDigits
  cases n with
  | ofNat m =>
      have h := Writes.plain (isNumeral_toDigits m)
      rw [hvalue] at h
      show Writes (toString m).toList m
      rwa [hdigits]
  | negSucc m =>
      have h := Writes.minus (isNumeral_toDigits (m + 1))
      rw [hvalue] at h
      show Writes ("-" ++ toString (m + 1)).toList _
      rw [String.toList_append, hdigits]
      exact h

-- ================================================================= values

/-- A text without an integer has no value. -/
theorem value?_of_not_holds {text : String} (h : ∀ n, ¬ Holds text.toList n) :
    value? text = none := by
  unfold value?
  split
  next n hn => exact absurd (holds_iff.2 hn) (h n)
  next => rfl

/-- Integers that 64 bits are enough for. -/
def Fits (n : Int) : Prop :=
  -9223372036854775808 ≤ n ∧ n ≤ 9223372036854775807

theorem fits_iff {n : Int} : Fits n ↔ Int64.minValue.toInt ≤ n ∧ n ≤ Int64.maxValue.toInt :=
  Iff.rfl

theorem fits_toInt (v : Int64) : Fits v.toInt :=
  fits_iff.2 ⟨Int64.minValue_le_toInt v, Int64.toInt_le v⟩

theorem toInt_ofInt {n : Int} (h : Fits n) : (Int64.ofInt n).toInt = n :=
  Int64.toInt_ofInt_of_le h.1 (Int.lt_add_one_of_le h.2)

/-- An integer is the value of its text if it fits. -/
theorem value?_of_fits {text : String} {n : Int} (h : Holds text.toList n) (hn : Fits n) :
    value? text = some (Int64.ofInt n) := by
  rw [value?, holds_iff.1 h]
  exact if_pos (fits_iff.1 hn)

theorem value?_of_not_fits {text : String} {n : Int} (h : Holds text.toList n)
    (hn : ¬ Fits n) : value? text = none := by
  rw [value?, holds_iff.1 h]
  exact if_neg hn

theorem value?_eq_some_iff {text : String} {v : Int64} :
    value? text = some v ↔ Holds text.toList v.toInt := by
  constructor
  · intro h
    by_cases hholds : ∃ n, Holds text.toList n
    · obtain ⟨n, hn⟩ := hholds
      by_cases hfits : Fits n
      · rw [value?_of_fits hn hfits] at h
        rw [← Option.some.inj h, toInt_ofInt hfits]
        exact hn
      · rw [value?_of_not_fits hn hfits] at h
        cases h
    · rw [value?_of_not_holds fun n hn => hholds ⟨n, hn⟩] at h
      cases h
  · intro h
    rw [value?_of_fits h (fits_toInt v), Int64.ofInt_toInt]

end Parameter

/-- The text that bytes encode is the one whose bytes they are. -/
theorem Bytes.toString?_eq_some_iff {b : Bytes} {text : String} :
    b.toString? = some text ↔ b = Bytes.ofString text := by
  constructor
  · intro h
    unfold toString? String.fromUTF8? at h
    split at h
    next hvalid =>
      rw [← Option.some.inj h]
      rfl
    next => cases h
  · rintro rfl
    unfold toString? ofString String.fromUTF8?
    rw [Array.toArray_toList]
    exact dif_pos text.isValidUTF8

-- ================================================================ contents

namespace Parameter

/-- What is made of the contents of a file. -/
def ofContents (name : String) (content : Bytes) : Except Failure Int64 :=
  match content.toString? with
  | none => .error ⟨.named name, .invalidText⟩
  | some text =>
      match value? text with
      | none => .error (.ofErrno (.named name) .einval)
      | some v => .ok v

theorem ofContents_of_not_text {name : String} {content : Bytes}
    (h : ∀ text, content ≠ Bytes.ofString text) :
    ofContents name content = .error ⟨.named name, .invalidText⟩ := by
  have hnone : content.toString? = none :=
    Option.eq_none_iff_forall_ne_some.2 fun text htext =>
      h text (Bytes.toString?_eq_some_iff.1 htext)
  rw [ofContents, hnone]

theorem ofContents_ofString (name text : String) :
    ofContents name (Bytes.ofString text) =
      match value? text with
      | none => .error (.ofErrno (.named name) .einval)
      | some v => .ok v := by
  rw [ofContents, Bytes.toString?_eq_some_iff.2 rfl]

theorem ofContents_ofString_of_holds {name text : String} {v : Int64}
    (h : Holds text.toList v.toInt) : ofContents name (Bytes.ofString text) = .ok v := by
  rw [ofContents_ofString, value?_eq_some_iff.2 h]

theorem ofContents_ofString_of_not_holds {name text : String}
    (h : ∀ v : Int64, ¬ Holds text.toList v.toInt) :
    ofContents name (Bytes.ofString text) = .error (.ofErrno (.named name) .einval) := by
  have hnone : value? text = none :=
    Option.eq_none_iff_forall_ne_some.2 fun v hv => h v (value?_eq_some_iff.1 hv)
  rw [ofContents_ofString, hnone]

theorem ofContents_eq_ok_iff {name : String} {content : Bytes} {v : Int64} :
    ofContents name content = .ok v ↔
      ∃ text, content = Bytes.ofString text ∧ Holds text.toList v.toInt := by
  constructor
  · intro h
    by_cases htext : ∃ text, content = Bytes.ofString text
    · obtain ⟨text, rfl⟩ := htext
      by_cases hholds : ∃ v' : Int64, Holds text.toList v'.toInt
      · obtain ⟨v', hv'⟩ := hholds
        rw [ofContents_ofString_of_holds hv'] at h
        exact ⟨text, rfl, Except.ok.inj h ▸ hv'⟩
      · rw [ofContents_ofString_of_not_holds (not_exists.1 hholds)] at h
        cases h
    · rw [ofContents_of_not_text (not_exists.1 htext)] at h
      cases h
  · rintro ⟨text, rfl, h⟩
    exact ofContents_ofString_of_holds h

end Parameter

-- ================================================================== files

namespace System

variable {σ : Type} {S : System σ}

/-- A file is read as what it supplies. -/
theorem contentsFrom_of_supplies {file : Handle} {s t : σ} {pieces : List Bytes}
    (h : S.Supplies file wholeRoom s pieces t) :
    S.contentsFrom file s = (.ok pieces.flatten, t) := by
  induction h with
  | @last s t h =>
      rw [contentsFrom_eq, S.persist_of_ok h]
      rfl
  | @interrupted s t u pieces h more ih =>
      -- what is read in the end is read from where the interruption left
      have hreply : S.persist (.read file wholeRoom) s = S.persist (.read file wholeRoom) t := by
        rw [S.persist_of_interrupted (by rw [h]; rfl), h]
      rw [contentsFrom_eq] at ih ⊢
      rw [hreply]
      exact ih
  | @piece s t u b pieces h nonempty more ih =>
      rw [contentsFrom_eq, S.persist_of_ok h]
      dsimp only
      rw [if_neg nonempty, ih]
      rfl

/-- A file that can be opened and read has contents, whatever closing it
comes to. -/
theorem result_contents_of_supplies {subject : Subject} {p : Path} (hnul : p.hasNul = false)
    {s t u : σ} {file : Handle} {pieces : List Bytes}
    (hopen : S.persist (.openFile p) s = (.ok file, t))
    (hread : S.Supplies file wholeRoom t pieces u) :
    ((S.contents subject p).run s).result = .ok pieces.flatten := by
  unfold contents
  rw [if_neg (by simp [hnul]), Op.run_persist_bind, hopen, Op.accept_ok_bind]
  show ((Op.accept subject (S.contentsFrom file t).1).run _).result = _
  rw [contentsFrom_of_supplies hread]
  rfl

/-- A parameter is what is made of the contents of its file. -/
theorem result_systemParameter_of_supplies {name : String} {q : Path}
    (hq : Parameter.path? name = some q) (hnul : q.hasNul = false) {s t u : σ} {file : Handle}
    {pieces : List Bytes} (hopen : S.persist (.openFile q) s = (.ok file, t))
    (hread : S.Supplies file wholeRoom t pieces u) :
    ((S.systemParameter name).run s).result = Parameter.ofContents name pieces.flatten := by
  have hcontents : ((S.contents (.named name) q).run s).result = .ok pieces.flatten :=
    result_contents_of_supplies hnul hopen hread
  unfold systemParameter Parameter.ofContents
  rw [hq]
  dsimp only
  rw [Op.run_bind, hcontents]
  dsimp only
  cases Bytes.toString? pieces.flatten with
  | none => rfl
  | some text =>
      dsimp only
      cases Parameter.value? text <;> rfl

end System

-- ================================================================ results

namespace Parameter

/-- What comes of a parameter whose file holds these bytes. -/
structure IsExact (name : String) (content : Bytes) (result : Except Failure Int64) : Prop where
  /-- A value is what the text holds, as an integer. -/
  ok_iff : ∀ v : Int64, result = .ok v ↔
    ∃ text, content = Bytes.ofString text ∧ Holds text.toList v.toInt
  /-- Bytes that are no text cannot be read. -/
  of_not_text : (∀ text, content ≠ Bytes.ofString text) →
    ∃ f, result = .error f ∧ f.subject = .named name ∧ f.errno = .eio ∧ f.kind = .io
  /-- A text that holds no integer of 64 bits is an invalid argument. -/
  of_not_value : ∀ text, content = Bytes.ofString text →
    (∀ v : Int64, ¬ Holds text.toList v.toInt) →
      result = .error (.ofErrno (.named name) .einval)
  /-- An integer is its own value, or has too many bits; it is not taken for
  another. -/
  of_holds : ∀ text n, content = Bytes.ofString text → Holds text.toList n →
    (Fits n ∧ ∃ v, result = .ok v ∧ v.toInt = n)
      ∨ ¬ Fits n ∧ result = .error (.ofErrno (.named name) .einval)
  /-- Every integer of 64 bits is read from its decimal form. -/
  of_decimal : ∀ (v : Int64) (u w : String), (∀ c ∈ u.toList, isBlank c = true) →
    (∀ c ∈ w.toList, isBlank c = true) →
    content = Bytes.ofString (u ++ toString v.toInt ++ w) → result = .ok v

theorem isExact_ofContents (name : String) (content : Bytes) :
    IsExact name content (ofContents name content) where
  ok_iff _ := ofContents_eq_ok_iff
  of_not_text h := ⟨_, ofContents_of_not_text h, rfl, rfl, rfl⟩
  of_not_value text hcontent h := hcontent ▸ ofContents_ofString_of_not_holds h
  of_holds text n hcontent hholds := by
    rw [hcontent]
    by_cases hfits : Fits n
    · have hn : (Int64.ofInt n).toInt = n := toInt_ofInt hfits
      exact Or.inl ⟨hfits, _, ofContents_ofString_of_holds (hn.symm ▸ hholds), hn⟩
    · refine Or.inr ⟨hfits, ofContents_ofString_of_not_holds fun v hv => hfits ?_⟩
      rw [hholds.unique hv]
      exact fits_toInt v
  of_decimal v u w hu hw hcontent := by
    rw [hcontent]
    refine ofContents_ofString_of_holds ⟨u.toList, _, w.toList, ?_, hu, hw, writes_toString _⟩
    rw [String.toList_append, String.toList_append]

end Parameter

namespace System

variable {σ : Type} {S : System σ}

/-- The value of a parameter whose file can be opened and read is the
integer that the file holds, and nothing but text with one integer of 64
bits in it has a value. The file comes in any pieces, with interruptions
anywhere, and how it is closed does not matter. -/
theorem systemParameter_is_exact {name : String} {q : Path}
    (hq : Parameter.path? name = some q) (hnul : Char.ofNat 0 ∉ name.toList) {s t u : σ}
    {file : Handle} {pieces : List Bytes} (hopen : S.persist (.openFile q) s = (.ok file, t))
    (hread : S.Supplies file wholeRoom t pieces u) :
    Parameter.IsExact name pieces.flatten ((S.systemParameter name).run s).result := by
  have hclean : q.hasNul = false :=
    Bool.eq_false_iff.2 fun h => hnul ((Parameter.hasNul_iff hq).1 h)
  rw [result_systemParameter_of_supplies hq hclean hopen hread]
  exact Parameter.isExact_ofContents name _

/-- The least integer of 64 bits with leading zeros, behind an ideographic
space that is cut in two by the reads, with an interruption in between. -/
theorem systemParameter_is_exact_split :
    let name := "kernel.pid_max"
    let q := Bytes.ofString "/proc/sys/kernel/pid_max"
    let text := "\u3000-009223372036854775808\n"
    let content := Bytes.ofString text
    let parts : List (Option Bytes) := [some (content.take 2), none, some (content.drop 2)]
    let opened : PreparedReply := fun
      | .openFile _ => .ok 3
      | _ => .error .ebadf
    let reads := parts.map readReply ++ [readReply (some [])]
    let result := ((prepared.systemParameter name).run (opened :: reads)).result
    Parameter.path? name = some q ∧ Char.ofNat 0 ∉ name.toList
      ∧ prepared.persist (.openFile q) (opened :: reads) = (.ok 3, reads)
      ∧ prepared.Supplies 3 wholeRoom reads parts.reduceOption []
      ∧ parts.reduceOption.flatten = content
      ∧ Parameter.IsExact name parts.reduceOption.flatten result
      ∧ result = .ok Int64.minValue := by
  intro name q text content parts opened reads result
  have hq : Parameter.path? name = some q := by decide +kernel
  have hopen : prepared.persist (.openFile q) (opened :: reads) = (.ok 3, reads) :=
    prepared.persist_of_ok rfl
  have hread : prepared.Supplies 3 wholeRoom reads parts.reduceOption [] :=
    supplies_prepared 3 wholeRoom parts (by decide +kernel) []
  have hexact := systemParameter_is_exact hq (by decide) hopen hread
  refine ⟨hq, by decide, hopen, hread, by decide +kernel, hexact, (hexact.ok_iff _).2 ?_⟩
  exact ⟨text, by decide +kernel, Parameter.holds_iff.2 (by decide +kernel)⟩

end System
end PosixFiles
