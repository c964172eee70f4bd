import Lindenmayer.Proofs.Single.Order
import Lindenmayer.Proofs.Single.Product

/-!
# Decimal numbers as singles

A decimal number is some digits times a power of ten. It becomes a single by one rounding, whatever
the digits and the exponent are (`isRounded_ofScientific`). There are three ways. A few digits and
a small power of ten are singles themselves, and one operation on them rounds their exact product
or quotient. Otherwise the exact product, or the quotient by a power of ten, is rounded. And an
exponent that is far too large or too small is not worked out at all: the number is beyond all
singles, or rounded to zero.

No decimal number becomes the negative zero (`parts_ofScientific_ne`), so a sign in front of the
digits shows in the result.
-/

set_option autoImplicit false

namespace Lindenmayer.Single

open Float.Model (Format UnpackedFloat totalExponent)
open Float.Model.UnpackedFloat

/-! ### Few digits -/

/-- Numbers of at most twenty-three digits are converted by way of a machine word, exactly. -/
theorem toFloat32_spec {digits : Nat} (h : digits < 2 ^ 23) :
    digits.toUInt64.toFloat32.isFinite = true ∧ value digits.toUInt64.toFloat32 = digits := by
  have hword : digits.toUInt64.toNat = digits := by
    rw [Nat.toUInt64, UInt64.toNat_ofNat']
    exact Nat.mod_eq_of_lt (by omega)
  have hround : IsRounded digits.toUInt64.toFloat32 ((digits.toUInt64.toNat : ℤ) * 2 ^ (0 : ℤ)) :=
    (standsFor_normalize digits.toUInt64.toNat 0 .positive).isRounded_pack
  rw [hword, zpow_zero, mul_one, Int.cast_natCast] at hround
  refine hround.of_grid
    ⟨digits, 0, ?_, by norm_num, by rw [zpow_zero, mul_one, Int.cast_natCast]⟩ ?_
  · rw [Nat.abs_cast]
    omega
  · rw [Nat.abs_cast]
    exact le_trans (show (digits : ℚ) ≤ 2 ^ 23 by exact_mod_cast h.le) (by norm_num [largest])

/-- The powers of ten that are singles. -/
def powerOfTen (exponent : Fin 11) : Float32 := Float32.exactlyRepresentablePowersOfTen[exponent]

/-- The mantissa of such a power is one of five, filled up to twenty-four digits. -/
theorem parts_powerOfTen : ∀ exponent, parts (powerOfTen exponent) =
    .finite .positive (2 ^ (23 - (5 ^ exponent.val).log2) * 5 ^ exponent.val)
      (exponent.val - (23 - (5 ^ exponent.val).log2 : Nat)) (by positivity) := by
  intro exponent
  fin_cases exponent <;> rfl

theorem isFinite_powerOfTen (exponent : Fin 11) : (powerOfTen exponent).isFinite = true := by
  rw [isFinite_eq, parts_powerOfTen]
  rfl

theorem value_powerOfTen (exponent : Fin 11) : value (powerOfTen exponent) = 10 ^ exponent.val := by
  rw [value, parts_powerOfTen, exactValue_positive, zpow_sub₀ two_ne_zero, zpow_natCast,
    zpow_natCast]
  push_cast
  rw [show (10 : ℚ) = 2 * 5 by norm_num, mul_pow]
  field_simp

/-- Few digits and a small power of ten take one operation. -/
theorem ofScientific_of_few {digits : Nat} {exponent : ℤ} (hdigits : digits < 2 ^ 23)
    (hexponent : exponent.natAbs ≤ 10) :
    Float32.ofScientific digits (exponent < 0) exponent.natAbs =
      if exponent < 0 then digits.toUInt64.toFloat32 / powerOfTen ⟨exponent.natAbs, by omega⟩
      else digits.toUInt64.toFloat32 * powerOfTen ⟨exponent.natAbs, by omega⟩ := by
  rw [Float32.ofScientific, dif_pos ⟨hdigits, hexponent⟩]
  simp only [decide_eq_true_eq]
  rfl

theorem isRounded_ofScientific_of_few {digits : Nat} {exponent : ℤ} (hdigits : digits < 2 ^ 23)
    (hexponent : exponent.natAbs ≤ 10) :
    IsRounded (Float32.ofScientific digits (exponent < 0) exponent.natAbs)
      (digits * 10 ^ exponent) := by
  obtain ⟨hfinite, hvalue⟩ := toFloat32_spec hdigits
  rw [ofScientific_of_few hdigits hexponent]
  generalize hpower : (⟨exponent.natAbs, by omega⟩ : Fin 11) = power
  have hvalue' : value (powerOfTen power) = 10 ^ exponent.natAbs := by
    rw [value_powerOfTen, ← hpower]
  have hfinite' := isFinite_powerOfTen power
  split_ifs with hneg
  · have hround := isRounded_div hfinite hfinite' (by rw [hvalue']; positivity)
    have hsign : exponent = -(exponent.natAbs : ℤ) := by omega
    rwa [hvalue, hvalue', div_eq_mul_inv, ← zpow_natCast, ← zpow_neg, ← hsign] at hround
  · have hround := isRounded_mul hfinite hfinite'
    have hsign : exponent = exponent.natAbs := by omega
    rwa [hvalue, hvalue', ← zpow_natCast, ← hsign] at hround

/-! ### Many digits or a large exponent -/

theorem lt_two_pow_log2 (digits : Nat) : (digits : ℚ) < 2 ^ (digits.log2 + 1 : ℤ) := by
  exact_mod_cast Nat.lt_log2_self (n := digits)

/-- With an exponent that is too large the number is beyond all singles. -/
theorem largest_lt_nearest {digits : Nat} (hpos : 0 < digits) {exponent : ℤ}
    (h : 256 < exponent) : largest < nearest (digits * 10 ^ exponent) := by
  have hlarge : (2 : ℚ) ^ (128 : ℤ) ≤ digits * 10 ^ exponent :=
    calc (2 : ℚ) ^ (128 : ℤ) ≤ 10 ^ (128 : ℤ) := by norm_num
      _ ≤ 10 ^ exponent := zpow_le_zpow_right₀ (by norm_num) (by omega)
      _ ≤ digits * 10 ^ exponent :=
        le_mul_of_one_le_left (zpow_pos (by norm_num) _).le (mod_cast hpos)
  refine lt_of_lt_of_le ?_ (nearest_mono hlarge)
  rw [nearest_zpow (by norm_num)]
  norm_num [largest]

/-- With an exponent that is too small the number is rounded to zero. -/
theorem nearest_eq_zero_of_lt {digits : Nat} {exponent : ℤ}
    (h : exponent < -(256 + digits.log2 : ℤ)) : nearest (digits * 10 ^ exponent) = 0 := by
  rw [nearest_eq_zero_iff, abs_of_nonneg (by positivity)]
  have hpower : (10 : ℚ) ^ exponent ≤ 2 ^ exponent := by
    have hexponent : exponent = -(exponent.natAbs : ℤ) := by omega
    rw [hexponent, zpow_neg, zpow_neg, zpow_natCast, zpow_natCast]
    exact inv_anti₀ (by positivity) (pow_le_pow_left₀ (by norm_num) (by norm_num) _)
  calc (digits : ℚ) * 10 ^ exponent ≤ 2 ^ (digits.log2 + 1 : ℤ) * 2 ^ exponent :=
        mul_le_mul (lt_two_pow_log2 digits).le hpower (zpow_pos (by norm_num) _).le (by positivity)
    _ = 2 ^ (digits.log2 + 1 + exponent : ℤ) := (zpow_add₀ two_ne_zero _ _).symm
    _ ≤ 2 ^ (-150 : ℤ) := zpow_le_zpow_right₀ one_le_two (by omega)

/-- The product with a power of ten, with twenty-four digits more than are needed. -/
theorem standsFor_product {digits : Nat} (hpos : 0 < digits) (exponent : Nat) :
    StandsFor (roundWithAccuracy Format.binary32 .positive (digits <<< 24 * 10 ^ exponent) (-24)
      .exact) (nearest (digits * 10 ^ exponent)) := by
  have hmagnitude : (0 : ℚ) < digits * 10 ^ exponent := by positivity
  have hquotient : (digits : ℚ) * (10 : ℚ) ^ exponent / (2 : ℚ) ^ (-24 : ℤ) =
      (digits <<< 24 * 10 ^ exponent : ℕ) := by
    rw [zpow_neg, div_inv_eq_mul, Nat.shiftLeft_eq]
    push_cast
    ring
  have hplace : -24 ≤ lastPlace (digits * 10 ^ exponent) := by
    have hlog : 0 ≤ Int.log 2 ((digits : ℚ) * 10 ^ exponent) := by
      rw [← Int.zpow_le_iff_le_log one_lt_two hmagnitude, zpow_zero]
      exact_mod_cast Nat.mul_pos hpos (by positivity)
    rw [lastPlace, abs_of_pos hmagnitude]
    omega
  refine standsFor_roundWithAccuracy_positive hmagnitude hplace ?_
  rw [hquotient]
  exact represents_exact _

/-- Digits with any exponent are rounded once. -/
theorem isRounded_pack_ofScientific (digits : Nat) (exponent : ℤ) :
    IsRounded (.ofModel (.pack (UnpackedFloat.ofScientific Format.binary32 digits exponent)))
      (digits * 10 ^ exponent) := by
  have hbits : (2 : ℤ) ^ Format.binary32.exponentBits = 256 := rfl
  rw [UnpackedFloat.ofScientific, hbits]
  split_ifs with hzero hlarge hsmall hsign
  · refine StandsFor.isRounded_pack ⟨trivial, rfl, ?_⟩
    rw [hzero, Nat.cast_zero, zero_mul, nearest_zero]
    rfl
  · have hbeyond := largest_lt_nearest (Nat.pos_of_ne_zero hzero) hlarge
    have hnonneg : (0 : ℚ) ≤ digits * 10 ^ exponent := by positivity
    rw [IsRounded, if_neg (not_le.mpr (hbeyond.trans_le (le_abs_self _))), if_neg hnonneg.not_gt]
    exact parts_pack_infinity .positive
  · exact StandsFor.isRounded_pack ⟨trivial, rfl, (nearest_eq_zero_of_lt hsmall).symm⟩
  · have hexponent : exponent = exponent.toNat := by omega
    have hproduct := standsFor_product (Nat.pos_of_ne_zero hzero) exponent.toNat
    rw [← zpow_natCast, ← hexponent] at hproduct
    exact hproduct.isRounded_pack
  · have hexponent : exponent = -((-exponent).toNat : ℤ) := by omega
    have hquotient := standsFor_divCore .positive 0 0 (Nat.pos_of_ne_zero hzero)
      (Nat.pow_pos (n := (-exponent).toNat) (show 0 < 10 by decide))
    rw [apply_positive, zpow_zero, mul_one, mul_one, Int.cast_one, one_mul, Nat.cast_pow,
      ← zpow_natCast, div_eq_mul_inv, ← zpow_neg, ← hexponent] at hquotient
    exact hquotient.isRounded_pack

/-! ### Any digits and exponent -/

theorem ofScientific_of_many {digits : Nat} {exponent : ℤ}
    (h : ¬ (digits < 2 ^ 23 ∧ exponent.natAbs ≤ 10)) :
    Float32.ofScientific digits (exponent < 0) exponent.natAbs =
      .ofModel (.pack (UnpackedFloat.ofScientific Format.binary32 digits exponent)) := by
  have hexponent : (if exponent < 0 then Int.negOfNat exponent.natAbs
      else Int.ofNat exponent.natAbs) = exponent := by
    split_ifs with hneg
    · rw [Int.negOfNat_eq, Int.ofNat_eq_natCast]
      omega
    · rw [Int.ofNat_eq_natCast]
      omega
  rw [Float32.ofScientific, dif_neg h]
  simp only [decide_eq_true_eq, hexponent]
  rfl

/-- A decimal number is rounded to the nearest single. -/
theorem isRounded_ofScientific (digits : Nat) (exponent : ℤ) :
    IsRounded (Float32.ofScientific digits (exponent < 0) exponent.natAbs)
      (digits * 10 ^ exponent) := by
  by_cases h : digits < 2 ^ 23 ∧ exponent.natAbs ≤ 10
  · exact isRounded_ofScientific_of_few h.1 h.2
  · rw [ofScientific_of_many h]
    exact isRounded_pack_ofScientific digits exponent

/-! ### The sign of zero -/

/-- What is stored with a positive sign is not the negative zero. -/
theorem unpack_ne {bits : BitVec Format.binary32.numBits}
    (h : unpackSign bits = Sign.positive.toBitVec) :
    unpack Format.binary32 bits ≠ .zero .negative := by
  have hsign : Sign.ofBitVec (unpackSign bits) = .positive := by rw [h]; rfl
  simp only [unpack, hsign]
  split_ifs <;> simp

theorem parts_pack_zero_ne : parts (.ofModel (.pack (.zero .positive))) ≠ .zero .negative := by
  have hparts : parts (.ofModel (.pack (.zero .positive))) = .zero .positive := rfl
  rw [hparts]
  simp

/-- Rounding keeps a positive sign, also where the result is zero. -/
theorem parts_pack_roundWithAccuracy_ne (mantissa : Nat) (exponent : ℤ) (accuracy : Accuracy) :
    parts (.ofModel (.pack
      (roundWithAccuracy Format.binary32 .positive mantissa exponent accuracy))) ≠
        .zero .negative := by
  rw [roundWithAccuracy]
  dsimp only
  split_ifs with hzero
  · exact parts_pack_zero_ne
  · exact unpack_ne (unpackSign_pack _ (Nat.pos_of_ne_zero hzero))

theorem parts_pack_ofScientific_ne (digits : Nat) (exponent : ℤ) :
    parts (.ofModel (.pack (UnpackedFloat.ofScientific Format.binary32 digits exponent))) ≠
      .zero .negative := by
  rw [UnpackedFloat.ofScientific]
  split_ifs
  · exact parts_pack_zero_ne
  · rw [parts_pack_infinity]
    simp
  · exact parts_pack_zero_ne
  · exact parts_pack_roundWithAccuracy_ne _ _ _
  · exact parts_pack_roundWithAccuracy_ne _ _ _

/-- Few digits make a zero only if there are none, and that zero is positive. -/
theorem parts_ofScientific_of_few_ne {digits : Nat} {exponent : ℤ} (hdigits : digits < 2 ^ 23)
    (hexponent : exponent.natAbs ≤ 10) :
    parts (Float32.ofScientific digits (exponent < 0) exponent.natAbs) ≠ .zero .negative := by
  rcases digits.eq_zero_or_pos with rfl | hpos
  · rw [ofScientific_of_few hdigits hexponent]
    have hall : ∀ power, parts ((0 : Nat).toUInt64.toFloat32 / powerOfTen power) ≠
          .zero .negative ∧
        parts ((0 : Nat).toUInt64.toFloat32 * powerOfTen power) ≠ .zero .negative := by
      intro power
      constructor
      · change parts (.ofModel (.pack (UnpackedFloat.div Format.binary32 (.zero .positive)
          (parts (powerOfTen power))))) ≠ _
        rw [parts_powerOfTen]
        exact parts_pack_zero_ne
      · change parts (.ofModel (.pack (UnpackedFloat.mul Format.binary32 (.zero .positive)
          (parts (powerOfTen power))))) ≠ _
        rw [parts_powerOfTen]
        exact parts_pack_zero_ne
    split_ifs
    · exact (hall _).1
    · exact (hall _).2
  · intro hparts
    have hfinite :
        (Float32.ofScientific digits (exponent < 0) exponent.natAbs).isFinite = true := by
      rw [isFinite_eq, hparts]
      rfl
    have hzero := (isRounded_ofScientific digits exponent).value_eq hfinite
    rw [value, hparts] at hzero
    have hsmall := nearest_eq_zero_iff.mp hzero.symm
    have hlarge : (10 : ℚ) ^ (-10 : ℤ) ≤ digits * 10 ^ exponent :=
      calc (10 : ℚ) ^ (-10 : ℤ) ≤ 10 ^ exponent := zpow_le_zpow_right₀ (by norm_num) (by omega)
        _ ≤ digits * 10 ^ exponent :=
          le_mul_of_one_le_left (zpow_pos (by norm_num) _).le (mod_cast hpos)
    rw [abs_of_pos (by positivity)] at hsmall
    exact absurd (hlarge.trans hsmall) (by norm_num)

/-- No digits and exponent make the negative zero. -/
theorem parts_ofScientific_ne (digits : Nat) (exponent : ℤ) :
    parts (Float32.ofScientific digits (exponent < 0) exponent.natAbs) ≠ .zero .negative := by
  by_cases h : digits < 2 ^ 23 ∧ exponent.natAbs ≤ 10
  · exact parts_ofScientific_of_few_ne h.1 h.2
  · rw [ofScientific_of_many h]
    exact parts_pack_ofScientific_ne digits exponent

end Lindenmayer.Single
