import Lindenmayer.Json.Token
import Mathlib.Data.List.TakeDrop

/-!
# The text of a numeral

`Numeral.text` writes a numeral with a sign if it is negative, all of its digits, and its exponent
if it is not plain. Reading the text gives the numeral back (`ofText?_text`): the digits of a
natural number have no zero in front (`exists_toDigits_eq_cons`), so they can stand before an
exponent, and the letter that announces the exponent ends them.

In a document other characters follow a numeral. The first character of its text begins a numeral
and the others are numeric (`exists_text_eq_cons`).
-/

set_option autoImplicit false

namespace Lindenmayer.Numeral

/-! ### Digits -/

theorem ofDigits_toDigits (number : Nat) : ofDigits (Nat.toDigits 10 number) = number :=
  Nat.ofDigitChars_ten_toDigits

theorem isDigit_of_mem {number : Nat} {digit : Char} (h : digit ∈ Nat.toDigits 10 number) :
    digit.isDigit = true :=
  Nat.isDigit_of_mem_toDigits (by decide) (by decide) h

theorem toDigits_ne_cons (number : Nat) {character : Char} (h : character.isDigit = false)
    (text : List Char) : Nat.toDigits 10 number ≠ character :: text := by
  intro heq
  have hdigit : character.isDigit = true := isDigit_of_mem (heq ▸ List.mem_cons_self)
  exact absurd hdigit (Bool.eq_false_iff.mp h)

/-- The digits of a positive number begin with another digit than zero. -/
theorem exists_toDigits_eq_cons {number : Nat} (hpos : 0 < number) :
    ∃ digit digits, Nat.toDigits 10 number = digit :: digits ∧ digit ≠ '0' := by
  induction number using Nat.strongRecOn with
  | _ number ih =>
    rcases Nat.lt_or_ge number 10 with hlt | hle
    · have hne : ∀ number < 10, 0 < number → number.digitChar ≠ '0' := by decide
      exact ⟨number.digitChar, [], Nat.toDigits_of_lt_base hlt, hne number hlt hpos⟩
    · obtain ⟨digit, digits, hdigits, hne⟩ := ih (number / 10) (by omega) (by omega)
      refine ⟨digit, digits ++ [(number % 10).digitChar], ?_, hne⟩
      rw [Nat.toDigits_of_base_le (by decide) hle, hdigits, List.cons_append]

theorem isWhole_toDigits (number : Nat) : isWhole (Nat.toDigits 10 number) = true := by
  rcases number.eq_zero_or_pos with rfl | hpos
  · rfl
  · obtain ⟨digit, digits, hdigits, hne⟩ := exists_toDigits_eq_cons hpos
    rw [hdigits]
    cases digits with
    | nil => rfl
    | cons _ _ => exact bne_iff_ne.mpr hne

/-- The digits in front of a text that begins with none are what is found there. -/
theorem span_append {digits text : List Char} (hdigits : ∀ digit ∈ digits, digit.isDigit = true)
    (h : ∀ character ∈ text.head?, character.isDigit = false) :
    (digits ++ text).span Char.isDigit = (digits, text) := by
  have hrest : text.takeWhile Char.isDigit = [] ∧ text.dropWhile Char.isDigit = text := by
    cases text with
    | nil => exact ⟨rfl, rfl⟩
    | cons character rest =>
      have hcharacter := h character rfl
      exact ⟨List.takeWhile_cons_of_neg (by simp [hcharacter]),
        List.dropWhile_cons_of_neg (by simp [hcharacter])⟩
  rw [List.span_eq_takeWhile_dropWhile, List.takeWhile_append_of_pos hdigits,
    List.dropWhile_append_of_pos hdigits, hrest.1, hrest.2, List.append_nil]

/-! ### Reading the text -/

theorem number?_toDigits (number : Nat) :
    readExponent.number? (Nat.toDigits 10 number) = some (number : Int) := by
  rw [readExponent.number?, if_pos, ofDigits_toDigits]
  exact ⟨Nat.toDigits_ne_nil, List.all_eq_true.mpr fun _ ↦ isDigit_of_mem⟩

theorem toList_toString_ofNat (number : Nat) :
    (toString (Int.ofNat number)).toList = Nat.toDigits 10 number := by
  rw [Int.toString_eq_repr, Int.repr, Nat.toList_repr]

theorem toList_toString_negSucc (number : Nat) :
    (toString (Int.negSucc number)).toList = '-' :: Nat.toDigits 10 (number + 1) := by
  rw [Int.toString_eq_repr, Int.repr]
  simp [Nat.toList_repr]

theorem readExponent_text (exponent : Int) :
    readExponent ('e' :: (toString exponent).toList) = some (some exponent) := by
  cases exponent with
  | ofNat number =>
    rw [toList_toString_ofNat, readExponent, if_pos (.inl rfl), number?_toDigits]
    · rfl
    · exact toDigits_ne_cons number rfl
    · exact toDigits_ne_cons number rfl
  | negSucc number =>
    rw [toList_toString_negSucc, readExponent, if_pos (.inl rfl)]
    simp only [number?_toDigits]
    rfl

/-- What stands behind the digits of a numeral. -/
def exponentText (numeral : Numeral) : List Char :=
  if numeral.plain then [] else 'e' :: (toString numeral.exponent).toList

theorem readFraction_exponentText (numeral : Numeral) :
    readFraction numeral.negative (Nat.toDigits 10 numeral.digits) numeral.exponentText =
      some numeral := by
  obtain ⟨negative, digits, exponent, plain, hexponent⟩ := numeral
  cases plain with
  | true =>
    obtain rfl := hexponent rfl
    simp [exponentText, readFraction, readExponent, ofDigits_toDigits]
  | false =>
    rw [exponentText, if_neg Bool.false_ne_true, readFraction, readExponent_text, Option.map_some,
      ofDigits_toDigits]
    · rfl
    · exact fun _ heq ↦ absurd (List.head_eq_of_cons_eq heq) (by decide)

theorem head?_exponentText (numeral : Numeral) :
    ∀ character ∈ numeral.exponentText.head?, character.isDigit = false := by
  intro character h
  rw [exponentText] at h
  split at h
  · cases h
  · cases h
    rfl

theorem readWhole_toDigits_append (numeral : Numeral) :
    readWhole numeral.negative (Nat.toDigits 10 numeral.digits ++ numeral.exponentText) =
      some numeral := by
  rw [readWhole, span_append (fun _ ↦ isDigit_of_mem) numeral.head?_exponentText]
  exact (if_pos (isWhole_toDigits _)).trans numeral.readFraction_exponentText

theorem text_eq (numeral : Numeral) :
    numeral.text = (if numeral.negative then ['-'] else []) ++
      (Nat.toDigits 10 numeral.digits ++ numeral.exponentText) :=
  List.append_assoc _ _ _

/-- The text of a numeral is read as that numeral. No digit is a sign, so that without one nothing
is taken off. -/
theorem ofText?_text (numeral : Numeral) : ofText? numeral.text = some numeral := by
  have hread := numeral.readWhole_toDigits_append
  rw [text_eq]
  cases hnegative : numeral.negative with
  | true =>
    rw [hnegative] at hread
    exact hread
  | false =>
    rw [hnegative] at hread
    rw [if_neg Bool.false_ne_true, List.nil_append, ofText?, hread]
    intro text heq
    cases hdigits : Nat.toDigits 10 numeral.digits with
    | nil => exact Nat.toDigits_ne_nil hdigits
    | cons digit digits =>
      rw [hdigits] at heq
      cases heq
      exact toDigits_ne_cons _ rfl digits hdigits

/-! ### The characters of the text -/

theorem isNumeric_of_mem_toDigits {number : Nat} {digit : Char}
    (h : digit ∈ Nat.toDigits 10 number) : Token.isNumeric digit = true := by
  simp [Token.isNumeric, isDigit_of_mem h]

theorem isNumeric_of_mem_exponentText {numeral : Numeral} {character : Char}
    (h : character ∈ numeral.exponentText) : Token.isNumeric character = true := by
  rw [exponentText] at h
  split at h
  · cases h
  rcases List.mem_cons.mp h with rfl | h
  · rfl
  cases hexponent : numeral.exponent with
  | ofNat number =>
    rw [hexponent, toList_toString_ofNat] at h
    exact isNumeric_of_mem_toDigits h
  | negSucc number =>
    rw [hexponent, toList_toString_negSucc] at h
    rcases List.mem_cons.mp h with rfl | h
    · rfl
    · exact isNumeric_of_mem_toDigits h

/-- The text of a numeral begins as numerals do and goes on with numeric characters. -/
theorem exists_text_eq_cons (numeral : Numeral) :
    ∃ first rest, numeral.text = first :: rest ∧ Token.beginsNumeral first = true ∧
      ∀ character ∈ rest, Token.isNumeric character = true := by
  have hnumeric : ∀ character ∈ Nat.toDigits 10 numeral.digits ++ numeral.exponentText,
      Token.isNumeric character = true := by
    intro character h
    rcases List.mem_append.mp h with h | h
    · exact isNumeric_of_mem_toDigits h
    · exact isNumeric_of_mem_exponentText h
  rw [text_eq]
  cases numeral.negative with
  | true => exact ⟨'-', _, rfl, rfl, hnumeric⟩
  | false =>
    cases hdigits : Nat.toDigits 10 numeral.digits with
    | nil => exact absurd hdigits Nat.toDigits_ne_nil
    | cons digit digits =>
      rw [hdigits] at hnumeric
      have hdigit : digit.isDigit = true := isDigit_of_mem (hdigits ▸ List.mem_cons_self)
      exact ⟨digit, digits ++ numeral.exponentText, rfl, by simp [Token.beginsNumeral, hdigit],
        fun character h ↦ hnumeric character (List.mem_cons_of_mem _ h)⟩

end Lindenmayer.Numeral
