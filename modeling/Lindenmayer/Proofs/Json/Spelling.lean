import Lindenmayer.Proofs.Json.NumeralReading
import Lindenmayer.Proofs.Json.NumeralText

/-!
# Spelled numbers

A number can be spelled in a document with a sign, digits before and after a point, and an
exponent. `Numeral.Spelling` is any such text, and `Numeral.Spelling.number` the number it spells.
Whatever is spelled so is read as a numeral of that number, though the numeral forgets the zeros at
the end of the fraction. If there is a point or an exponent and there are no more than a hundred and
thirteen digits, the numeral is not misread (`Numeral.ofText?_spelling`).
-/

set_option autoImplicit false

namespace Lindenmayer.Numeral

open Single
open Float.Model.UnpackedFloat (Sign)

/-! ### Digits -/

theorem ofDigits_append_singleton (digits : List Char) (digit : Char) :
    ofDigits (digits ++ [digit]) = 10 * ofDigits digits + (digit.toNat - '0'.toNat) := by
  rw [ofDigits, List.foldl_append]
  rfl

theorem ofDigits_append_replicate (digits : List Char) (count : Nat) :
    ofDigits (digits ++ List.replicate count '0') = ofDigits digits * 10 ^ count := by
  induction count with
  | zero => rw [List.replicate_zero, List.append_nil, pow_zero, mul_one]
  | succ count ih =>
    rw [List.replicate_succ', ← List.append_assoc, ofDigits_append_singleton, ih, pow_succ,
      Nat.sub_self]
    ring

theorem ofDigits_lt {digits : List Char} (h : ∀ digit ∈ digits, digit.isDigit = true) :
    ofDigits digits < 10 ^ digits.length := by
  induction digits using List.reverseRecOn with
  | nil => decide
  | append_singleton digits digit ih =>
    have hdigit : digit.toNat - '0'.toNat < 10 := by
      have hisDigit := h digit (List.mem_append_right _ (List.mem_singleton_self digit))
      simp only [Char.isDigit, Bool.and_eq_true, decide_eq_true_eq] at hisDigit
      have hle : digit.toNat ≤ 57 := hisDigit.2
      have hzero : '0'.toNat = 48 := rfl
      omega
    have hrest := ih fun digit hmem ↦ h digit (List.mem_append_left _ hmem)
    rw [ofDigits_append_singleton, List.length_append, List.length_singleton, pow_succ]
    omega

/-- Only zeros are dropped at the end. -/
theorem exists_replicate_zero (digits : List Char) :
    ∃ count, digits = dropEndZeros digits ++ List.replicate count '0' := by
  have hzeros : digits.reverse.takeWhile (· = '0') =
      List.replicate (digits.reverse.takeWhile (· = '0')).length '0' := by
    refine List.eq_replicate_of_mem fun digit hmem ↦ ?_
    simpa using List.mem_takeWhile_imp hmem
  refine ⟨(digits.reverse.takeWhile (· = '0')).length, ?_⟩
  rw [dropEndZeros, ← List.reverse_replicate, ← hzeros, ← List.reverse_append,
    List.takeWhile_append_dropWhile, List.reverse_reverse]

/-- Dropping the zeros at the end of a fraction leaves its number. -/
theorem ofDigits_dropEndZeros (whole fraction : List Char) (exponent : ℤ) :
    (ofDigits (whole ++ dropEndZeros fraction) : ℚ) *
        10 ^ (exponent - (dropEndZeros fraction).length) =
      ofDigits (whole ++ fraction) * 10 ^ (exponent - fraction.length) := by
  obtain ⟨count, hcount⟩ := exists_replicate_zero fraction
  generalize dropEndZeros fraction = kept at hcount ⊢
  rw [hcount, ← List.append_assoc, ofDigits_append_replicate, List.length_append,
    List.length_replicate]
  push_cast
  rw [mul_assoc, ← zpow_natCast, ← zpow_add₀ (by norm_num)]
  congr 2
  ring

/-! ### Spellings -/

/-- A number as it can be written: a sign, digits before a point, digits after it and an exponent.
Only the digits before the point have to be there. -/
structure Spelling where
  negative : Bool
  /-- The digits before the point. -/
  whole : List Char
  /-- The digits after the point, which is not written if there are none. -/
  fraction : List Char
  /-- The exponent with the letter that announces it, or nothing. -/
  exponentText : List Char
  exponent : Option ℤ
  isWhole_whole : isWhole whole = true
  isDigit_of_mem : ∀ digit ∈ whole ++ fraction, digit.isDigit = true
  readExponent_eq : readExponent exponentText = some exponent

namespace Spelling

/-- What is written. -/
def text (spelling : Spelling) : List Char :=
  (if spelling.negative then ['-'] else []) ++
    (spelling.whole ++ ((if spelling.fraction = [] then [] else '.' :: spelling.fraction) ++
      spelling.exponentText))

/-- The sign that is written. -/
def sign (spelling : Spelling) : Sign := if spelling.negative then .negative else .positive

/-- The number that is spelled: that of all its digits, with the point moved to its place. -/
def number (spelling : Spelling) : ℚ :=
  spelling.sign.apply 1 * (ofDigits (spelling.whole ++ spelling.fraction) *
    10 ^ (spelling.exponent.getD 0 - spelling.fraction.length))

/-- All that follows the digits before the point. -/
def rest (spelling : Spelling) : List Char :=
  (if spelling.fraction = [] then [] else '.' :: spelling.fraction) ++ spelling.exponentText

end Spelling

/-! ### Reading a spelled number -/

theorem head?_of_readExponent {text : List Char} {exponent : Option ℤ}
    (h : readExponent text = some exponent) :
    ∀ character ∈ text.head?, character = 'e' ∨ character = 'E' := by
  cases text with
  | nil => simp
  | cons letter text =>
    rintro character ⟨⟩
    by_contra hletter
    simp [readExponent, hletter] at h

section Reading

variable (spelling : Spelling)

/-- The numeral that is read has the digits without the zeros at the end, and is plain if neither a
point nor an exponent is written. -/
theorem readFraction_rest : ∃ numeral,
    readFraction spelling.negative spelling.whole spelling.rest = some numeral ∧
      numeral.negative = spelling.negative ∧
      numeral.digits = ofDigits (spelling.whole ++ dropEndZeros spelling.fraction) ∧
      numeral.exponent = spelling.exponent.getD 0 - (dropEndZeros spelling.fraction).length ∧
      (numeral.plain = true → spelling.fraction = [] ∧ spelling.exponent = none) := by
  have hexponent := spelling.readExponent_eq
  have hletter := head?_of_readExponent hexponent
  rw [Spelling.rest]
  split_ifs with hfraction
  · rw [hfraction, List.nil_append, readFraction, hexponent, Option.map_some]
    · refine ⟨_, rfl, rfl, ?_, ?_, fun hplain ↦ ⟨rfl, Option.isNone_iff_eq_none.mp hplain⟩⟩
      · simp [dropEndZeros]
      · simp [dropEndZeros]
    · intro text htext
      rw [htext] at hletter
      exact absurd (hletter '.' rfl) (by decide)
  · have hdigits : ∀ digit ∈ spelling.fraction, digit.isDigit = true := fun digit hmem ↦
      spelling.isDigit_of_mem digit (List.mem_append_right _ hmem)
    have hend : ∀ character ∈ spelling.exponentText.head?, character.isDigit = false := by
      intro character hhead
      rcases hletter character hhead with rfl | rfl <;> rfl
    rw [List.cons_append, readFraction, span_append hdigits hend]
    simp only [if_neg hfraction, hexponent, Option.map_some]
    exact ⟨_, rfl, rfl, rfl, rfl, fun hplain ↦ absurd hplain Bool.false_ne_true⟩

theorem head?_rest : ∀ character ∈ spelling.rest.head?, character.isDigit = false := by
  intro character hhead
  rw [Spelling.rest] at hhead
  split_ifs at hhead with hfraction
  · rcases head?_of_readExponent spelling.readExponent_eq character hhead with rfl | rfl <;> rfl
  · cases hhead
    rfl

/-- A spelled number is read digit by digit, after its sign. No digit is a sign, so that without one
nothing is taken off. -/
theorem ofText?_text_eq_readFraction : ofText? spelling.text =
    readFraction spelling.negative spelling.whole spelling.rest := by
  have hdigits : ∀ digit ∈ spelling.whole, digit.isDigit = true := fun digit hmem ↦
    spelling.isDigit_of_mem digit (List.mem_append_left _ hmem)
  have hread : readWhole spelling.negative (spelling.whole ++ spelling.rest) =
      readFraction spelling.negative spelling.whole spelling.rest := by
    rw [readWhole, span_append hdigits (head?_rest spelling)]
    exact if_pos spelling.isWhole_whole
  have htext : spelling.text =
      (if spelling.negative then ['-'] else []) ++ (spelling.whole ++ spelling.rest) := rfl
  rw [htext, ← hread]
  cases spelling.negative with
  | true => rfl
  | false =>
    rw [if_neg Bool.false_ne_true, List.nil_append, ofText?]
    intro text heq
    cases hwhole : spelling.whole with
    | nil =>
      have hnil := spelling.isWhole_whole
      rw [hwhole] at hnil
      cases hnil
    | cons digit digits =>
      rw [hwhole] at heq hdigits
      obtain rfl : digit = '-' := List.head_eq_of_cons_eq heq
      exact absurd (hdigits _ List.mem_cons_self) (by decide)

/-- The digits that are kept are among those that are written. -/
theorem ofDigits_kept_lt : ofDigits (spelling.whole ++ dropEndZeros spelling.fraction) <
    10 ^ (spelling.whole ++ spelling.fraction).length := by
  obtain ⟨count, hcount⟩ := exists_replicate_zero spelling.fraction
  have hdigits := spelling.isDigit_of_mem
  generalize dropEndZeros spelling.fraction = kept at hcount ⊢
  rw [hcount, ← List.append_assoc] at hdigits ⊢
  have hlt := ofDigits_lt fun digit hmem ↦ hdigits digit (List.mem_append_left _ hmem)
  exact hlt.trans_le (Nat.pow_le_pow_right (by decide) (List.sublist_append_left _ _).length_le)

/-- Whatever spells a number is read as a numeral of that number. With a point or an exponent and up
to a hundred and thirteen digits it is not misread. -/
theorem ofText?_spelling :
    ∃ numeral, ofText? spelling.text = some numeral ∧ numeral.sign = spelling.sign ∧
      numeral.number = spelling.number ∧
      (spelling.fraction ≠ [] ∨ spelling.exponent ≠ none →
        (spelling.whole ++ spelling.fraction).length ≤ 113 → ¬ numeral.IsMisread) := by
  obtain ⟨numeral, hread, hnegative, hdigits, hexponent, hplain⟩ := readFraction_rest spelling
  have hsign : numeral.sign = spelling.sign := by rw [sign, hnegative, Spelling.sign]
  refine ⟨numeral, (ofText?_text_eq_readFraction spelling).trans hread, hsign, ?_,
    fun hpoint hlength ↦ not_isMisread_of_digits ?_ ?_⟩
  · rw [number, hsign, magnitude, hdigits, hexponent, ofDigits_dropEndZeros, Spelling.number]
  · rw [Bool.eq_false_iff]
    intro htrue
    obtain ⟨hfraction, hexponent⟩ := hplain htrue
    exact hpoint.elim (· hfraction) (· hexponent)
  · rw [hdigits]
    exact (ofDigits_kept_lt spelling).trans_le (Nat.pow_le_pow_right (by decide) hlength)

end Reading

end Lindenmayer.Numeral
