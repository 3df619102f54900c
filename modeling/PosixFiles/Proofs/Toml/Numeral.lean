/-
Numbers in decimal digits, as documents read them.

The digits of a number are a run that is read as a whole. They are no date
and no time of day, for these have other marks between their digits; they
have no leading zero, which would make them no number at all; and what
they denote is the number they were made from.
-/
import Mathlib.Data.List.TakeDrop
import PosixFiles.Toml.Document

namespace PosixFiles.Toml

/-- A run ends at the first character that does not belong to it. -/
theorem span_append_cons {α : Type} {p : α → Bool} {run : List α} {stop : α} {rest : List α}
    (hrun : ∀ a ∈ run, p a = true) (hstop : p stop = false) :
    (run ++ stop :: rest).span p = (run, stop :: rest) := by
  have hneg : ¬ p stop = true := by simp [hstop]
  rw [List.span_eq_takeWhile_dropWhile, List.takeWhile_append_of_pos hrun,
    List.dropWhile_append_of_pos hrun, List.takeWhile_cons_of_neg hneg,
    List.dropWhile_cons_of_neg hneg, List.append_nil]

-- ================================================================ digits

/-- Nothing but decimal digits, at least one. -/
structure IsNumeral (ds : List Char) : Prop where
  ne_nil : ds ≠ []
  isDigit : ∀ d ∈ ds, d.isDigit = true

namespace IsNumeral

variable {ds : List Char}

/-- What is no digit does not come in. -/
theorem not_mem (h : IsNumeral ds) {c : Char} (hc : c.isDigit = false) : c ∉ ds := by
  intro hmem
  rw [h.isDigit c hmem] at hc
  cases hc

theorem isScalarChar (h : IsNumeral ds) : ∀ d ∈ ds, isScalarChar d = true := by
  intro d hd
  simp [Toml.isScalarChar, Char.isAlphanum, h.isDigit d hd]

theorem ungrouped_eq (h : IsNumeral ds) : ungrouped Char.isDigit ds = some ds := by
  obtain ⟨hne, hdigits⟩ := h
  fun_induction ungrouped Char.isDigit ds with
  | case1 => exact absurd rfl hne
  | case2 c hc => rfl
  | case3 c hc => exact absurd (hdigits c (List.mem_singleton_self c)) hc
  | case4 c rest hc ih =>
      cases hdigits '_' (List.mem_cons_of_mem _ (List.mem_cons_self ..))
  | case5 c rest hc => exact absurd (hdigits c (List.mem_cons_self ..)) hc
  | case6 c rest hmore hunderscore hc ih =>
      rw [ih hmore fun d hd => hdigits d (List.mem_cons_of_mem _ hd)]
      rfl
  | case7 c rest hmore hunderscore hc => exact absurd (hdigits c (List.mem_cons_self ..)) hc

theorem signed_eq (h : IsNumeral ds) : signed ds = (false, ds) := by
  unfold signed
  split
  · exact absurd (List.mem_cons_self ..) (h.not_mem (c := '+') rfl)
  · exact absurd (List.mem_cons_self ..) (h.not_mem (c := '-') rfl)
  · rfl

theorem isMoment_eq (h : IsNumeral ds) : isMoment ds = false := by
  have hdate : afterDate? ds = none := by
    unfold afterDate?
    split
    · exact absurd (by simp) (h.not_mem (c := '-') rfl)
    · rfl
  have htime : afterTime? ds = none := by
    unfold afterTime?
    split
    · exact absurd (by simp) (h.not_mem (c := ':') rfl)
    · rfl
  rw [isMoment, hdate, htime]
  rfl

/-- The number that digits denote is the one that the library reads from
them. -/
theorem ofDigits_eq (h : IsNumeral ds) : ofDigits 10 ds = Nat.ofDigitChars 10 ds 0 := by
  obtain ⟨-, hdigits⟩ := h
  unfold ofDigits
  generalize (0 : Nat) = n
  induction ds generalizing n with
  | nil => rfl
  | cons d ds ih =>
      obtain ⟨hd, hdigits⟩ := List.forall_mem_cons.1 hdigits
      rw [List.foldl_cons, Nat.ofDigitChars_cons, digitValue, if_pos hd, Nat.mul_comm]
      exact ih hdigits _

/-- Digits are an integer as a whole, and nothing else. -/
theorem scalarOfRun?_eq (h : IsNumeral ds) (hzero : ∀ d rest, ds ≠ '0' :: d :: rest)
    (hword : isWord (Int.ofNat (ofDigits 10 ds)) = true) :
    scalarOfRun? ds = some (.integer (ofDigits 10 ds)) := by
  have hletter : ∀ {c : Char} {rest : List Char}, c.isDigit = false → ds ≠ c :: rest := by
    rintro c rest hc rfl
    exact h.not_mem hc (List.mem_cons_self ..)
  have hdecimal : decimalDigits? ds = some ds := by
    rw [decimalDigits?, h.ungrouped_eq]
    split
    next heq => exact absurd (Option.some.inj heq) (hzero _ _)
    next => rfl
  have hinteger : integer? ds = some (Int.ofNat (ofDigits 10 ds)) := by
    unfold integer?
    split
    · exact absurd rfl (hzero _ _)
    · exact absurd rfl (hzero _ _)
    · exact absurd rfl (hzero _ _)
    · rw [h.signed_eq]
      dsimp only
      rw [hdecimal]
      rfl
  rw [scalarOfRun?, if_neg (hletter rfl), if_neg (hletter rfl), h.isMoment_eq, hinteger]
  dsimp only
  rw [if_neg Bool.false_ne_true, if_pos hword]
  rfl

end IsNumeral

-- ============================================================ of a number

theorem isNumeral_toDigits (n : Nat) : IsNumeral (Nat.toDigits 10 n) where
  ne_nil := Nat.toDigits_ne_nil
  isDigit := fun _ hd => Nat.isDigit_of_mem_toDigits (by decide) (by decide) hd

theorem ofDigits_toDigits (n : Nat) : ofDigits 10 (Nat.toDigits 10 n) = n := by
  rw [(isNumeral_toDigits n).ofDigits_eq, Nat.ofDigitChars_ten_toDigits]

/-- The digits of a number other than zero begin with another digit than
zero. -/
theorem head?_toDigits {n : Nat} (hn : 0 < n) : (Nat.toDigits 10 n).head? ≠ some '0' := by
  induction n using Nat.strongRecOn with
  | ind n ih =>
      by_cases hsmall : n < 10
      · rw [Nat.toDigits_of_lt_base hsmall, List.head?_cons]
        intro h
        have := Nat.digitChar_eq_zero.1 (Option.some.inj h)
        omega
      · obtain ⟨d, ds, hds⟩ := List.exists_cons_of_ne_nil (isNumeral_toDigits (n / 10)).ne_nil
        have hhead := ih (n / 10) (by omega) (by omega)
        rw [hds] at hhead
        rw [Nat.toDigits_of_base_le (by decide) (by omega), hds]
        exact hhead

/-- The digits of a number have no leading zero. -/
theorem toDigits_ne_zero_cons (n : Nat) (d : Char) (rest : List Char) :
    Nat.toDigits 10 n ≠ '0' :: d :: rest := by
  intro h
  rcases Nat.eq_zero_or_pos n with rfl | hn
  · rw [Nat.toDigits_zero] at h
    cases h
  · refine head?_toDigits hn ?_
    rw [h]
    rfl

/-- A number that fits is read from its digits, up to the end of the
line. -/
theorem scalar?_toDigits {n : Nat} (hword : isWord n = true) (rest : List Char) :
    scalar? (Nat.toDigits 10 n ++ '\n' :: rest) = some (.integer n, '\n' :: rest) := by
  have h := isNumeral_toDigits n
  have hrun := h.scalarOfRun?_eq (toDigits_ne_zero_cons n)
  rw [ofDigits_toDigits] at hrun
  unfold scalar?
  rw [span_append_cons h.isScalarChar (by decide)]
  dsimp only
  -- nothing is behind a space, so the run is no date that goes on
  rw [if_neg (fun h => Bool.false_ne_true h.2), hrun hword]
  rfl

end PosixFiles.Toml
