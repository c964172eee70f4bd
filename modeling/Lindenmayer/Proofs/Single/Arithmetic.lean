import Lindenmayer.Proofs.Single.Rounding
import Lindenmayer.Single.Remainder

/-!
# Sums and remainders of singles

The sum and the difference of two finite singles are the exact ones, rounded once (`isRounded_add`,
`isRounded_sub`). Both operands are written as multiples of the smaller one of their places, where
integers are added (`apply_shiftLeft`); a difference is the sum with the opposite number
(`sub_eq_add`).

A remainder is not rounded at all: it is a multiple of the smaller place too, and has no more digits
than one of the operands. `IsRemainder` collects what makes it the remainder: it lies on the side of
the dividend, is smaller than the divisor and differs from the dividend by a multiple of the
divisor. `remainder_spec` shows that `remainder` returns it, for every finite dividend and every
divisor with a value other than zero. A dividend that is smaller than the divisor is returned as it
is, the sign of a zero included (`remainder_of_abs_lt`).
-/

set_option autoImplicit false

namespace Lindenmayer.Single

open Float.Model (Format UnpackedFloat)
open Float.Model.UnpackedFloat

/-! ### Sums and differences -/

theorem standsFor_parts {number : Float32} (h : number.isFinite = true) :
    StandsFor (parts number) (value number) := ⟨(canonical_parts number).1, h, rfl⟩

/-- Two numbers are added at the smaller one of their exponents. -/
theorem apply_shiftLeft (sign : Sign) (mantissa : Nat) {exponent smaller : ℤ}
    (h : smaller ≤ exponent) :
    ((sign.apply (mantissa <<< (exponent - smaller).toNat : ℕ) : ℤ) : ℚ) * 2 ^ smaller =
      sign.apply mantissa * 2 ^ exponent := by
  have hexponent : exponent = (exponent - smaller).toNat + smaller := by omega
  have hshift : ((mantissa <<< (exponent - smaller).toNat : ℕ) : ℚ) * 2 ^ smaller =
      mantissa * 2 ^ exponent := by
    conv_rhs => rw [hexponent, zpow_add₀ two_ne_zero, zpow_natCast, ← mul_assoc]
    rw [Nat.shiftLeft_eq]
    push_cast
    rfl
  cases sign with
  | positive => simpa only [Sign.apply, Int.cast_natCast] using hshift
  | negative => simp only [Sign.apply, Int.cast_neg, Int.cast_natCast, neg_mul, hshift]

/-- Addition of canonical numbers. -/
theorem StandsFor.add {first second : UnpackedFloat} {number number' : ℚ}
    (hfirst : StandsFor first number) (hsecond : StandsFor second number') :
    StandsFor (UnpackedFloat.add Format.binary32 first second) (nearest (number + number')) := by
  have hgrid := nearest_of_grid (hfirst.value_eq ▸ grid_exactValue hfirst.canonical)
  have hgrid' := nearest_of_grid (hsecond.value_eq ▸ grid_exactValue hsecond.canonical)
  obtain ⟨sign, rfl, rfl⟩ | ⟨sign, mantissa, exponent, hpos, rfl, hvalue⟩ := hfirst.zero_or_finite
  · obtain ⟨sign', rfl, rfl⟩ | ⟨sign', mantissa', exponent', hpos', rfl, -⟩ :=
      hsecond.zero_or_finite
    · rw [add_zero, nearest_zero]
      cases sign <;> cases sign' <;> exact ⟨trivial, rfl, rfl⟩
    · rw [zero_add, hgrid']
      exact hsecond
  · obtain ⟨sign', rfl, rfl⟩ | ⟨sign', mantissa', exponent', hpos', rfl, hvalue'⟩ :=
      hsecond.zero_or_finite
    · rw [add_zero, hgrid]
      exact hfirst
    · rw [hvalue, hvalue', exactValue, exactValue,
        ← apply_shiftLeft sign mantissa (min_le_left exponent exponent'),
        ← apply_shiftLeft sign' mantissa' (min_le_right exponent exponent'), ← add_mul,
        ← Int.cast_add]
      exact standsFor_normalize _ _ _

theorem apply_neg (sign : Sign) (mantissa : ℤ) : (-sign).apply mantissa = -sign.apply mantissa := by
  cases sign with
  | positive => rfl
  | negative => exact (neg_neg mantissa).symm

/-- Subtraction is addition of the opposite number. -/
theorem sub_eq_add (first second : UnpackedFloat) :
    UnpackedFloat.sub Format.binary32 first second =
      UnpackedFloat.add Format.binary32 first second.neg := by
  cases first <;> cases second <;> try rfl
  rename_i sign mantissa exponent hpos sign' mantissa' exponent' hpos'
  simp only [UnpackedFloat.sub, UnpackedFloat.neg, UnpackedFloat.add, apply_neg,
    ← Int.sub_eq_add_neg]

theorem isRounded_add {first second : Float32} (hfirst : first.isFinite = true)
    (hsecond : second.isFinite = true) :
    IsRounded (first + second) (value first + value second) :=
  ((standsFor_parts hfirst).add (standsFor_parts hsecond)).isRounded_pack

theorem isRounded_sub {first second : Float32} (hfirst : first.isFinite = true)
    (hsecond : second.isFinite = true) :
    IsRounded (first - second) (value first - value second) := by
  have hsub := (standsFor_parts hfirst).add (standsFor_parts hsecond).neg
  rw [← sub_eq_add, ← sub_eq_add_neg] at hsub
  exact hsub.isRounded_pack

/-! ### Remainders -/

/-- What a remainder is: a number on the side of the dividend, smaller than the divisor, which
differs from the dividend by a multiple of the divisor. -/
structure IsRemainder (result dividend divisor : ℚ) : Prop where
  abs_lt : |result| < |divisor|
  abs_le : |result| ≤ |dividend|
  nonneg : 0 ≤ dividend → 0 ≤ result
  nonpos : dividend ≤ 0 → result ≤ 0
  multiple : ∃ count : ℤ, dividend = result + count * divisor

theorem IsRemainder.neg {result dividend divisor : ℚ} (h : IsRemainder result dividend divisor) :
    IsRemainder (-result) (-dividend) divisor := by
  obtain ⟨habs, hle, hnonneg, hnonpos, count, rfl⟩ := h
  refine ⟨by rwa [abs_neg], by rwa [abs_neg, abs_neg], fun hside ↦ ?_, fun hside ↦ ?_, -count, ?_⟩
  · exact neg_nonneg.mpr (hnonpos (neg_nonneg.mp hside))
  · exact neg_nonpos.mpr (hnonneg (neg_nonpos.mp hside))
  · push_cast
    ring

theorem IsRemainder.neg_divisor {result dividend divisor : ℚ}
    (h : IsRemainder result dividend divisor) : IsRemainder result dividend (-divisor) := by
  obtain ⟨habs, hle, hnonneg, hnonpos, count, rfl⟩ := h
  refine ⟨by rwa [abs_neg], hle, hnonneg, hnonpos, -count, ?_⟩
  push_cast
  ring

/-- A dividend that is smaller than the divisor is left as it is: on one side of zero, it differs
from the remainder by less than the divisor. -/
theorem IsRemainder.eq_of_abs_lt {result dividend divisor : ℚ}
    (h : IsRemainder result dividend divisor) (hlt : |dividend| < |divisor|) :
    dividend = result := by
  obtain ⟨-, hle, hnonneg, hnonpos, count, hcount⟩ := h
  have hdivisor : 0 < |divisor| := (abs_nonneg _).trans_lt hlt
  have hgap : |dividend - result| ≤ |dividend| := by
    rcases le_total 0 dividend with hside | hside
    · have hresult := hnonneg hside
      rw [abs_of_nonneg hside, abs_of_nonneg hresult] at hle
      rw [abs_of_nonneg hside, abs_of_nonneg (sub_nonneg.mpr hle)]
      exact sub_le_self _ hresult
    · have hresult := hnonpos hside
      rw [abs_of_nonpos hside, abs_of_nonpos hresult, neg_le_neg_iff] at hle
      rw [abs_of_nonpos hside, abs_of_nonpos (sub_nonpos.mpr hle), neg_le_neg_iff]
      linarith
  have hmultiple : count * divisor = dividend - result := by rw [hcount, add_sub_cancel_left]
  have hsmall : |(count : ℚ)| * |divisor| < 1 * |divisor| := by
    rw [← abs_mul, one_mul, hmultiple]
    exact hgap.trans_lt hlt
  have hcount_zero : count = 0 := by
    have hlt_one : |(count : ℚ)| < 1 := lt_of_mul_lt_mul_right hsmall hdivisor.le
    exact Int.abs_lt_one_iff.mp (mod_cast hlt_one)
  rw [hcount, hcount_zero, Int.cast_zero, zero_mul, add_zero]

/-- Remainders of natural numbers, in any unit and with any signs. -/
theorem isRemainder_mod (sign sign' : Sign) (dividend : Nat) {divisor : Nat} (hpos : 0 < divisor)
    {unit : ℚ} (hunit : 0 < unit) :
    IsRemainder (sign.apply (dividend % divisor : ℕ) * unit) (sign.apply dividend * unit)
      (sign'.apply divisor * unit) := by
  have hpositive :
      IsRemainder ((dividend % divisor : ℕ) * unit) (dividend * unit) (divisor * unit) := by
    have hrest : (0 : ℚ) ≤ (dividend % divisor : ℕ) * unit := by positivity
    have hwhole : (0 : ℚ) ≤ dividend * unit := by positivity
    have hmodulus : (0 : ℚ) ≤ divisor * unit := by positivity
    have hle : ((dividend % divisor : ℕ) : ℚ) * unit ≤ dividend * unit :=
      mul_le_mul_of_nonneg_right (mod_cast Nat.mod_le dividend divisor) hunit.le
    refine ⟨?_, ?_, fun _ ↦ hrest, hle.trans, (dividend / divisor : ℕ), ?_⟩
    · rw [abs_of_nonneg hrest, abs_of_nonneg hmodulus]
      exact mul_lt_mul_of_pos_right (mod_cast Nat.mod_lt dividend hpos) hunit
    · rwa [abs_of_nonneg hrest, abs_of_nonneg hwhole]
    · have hdivision :
          (dividend : ℚ) = (dividend % divisor : ℕ) + divisor * (dividend / divisor : ℕ) :=
        mod_cast (Nat.mod_add_div dividend divisor).symm
      rw [Int.cast_natCast, hdivision]
      ring
  have hsigned : IsRemainder ((dividend % divisor : ℕ) * unit) (dividend * unit)
      (sign'.apply divisor * unit) := by
    cases sign' with
    | positive => rwa [apply_positive, Int.cast_natCast]
    | negative =>
      rw [apply_negative, Int.cast_neg, Int.cast_natCast, neg_mul]
      exact hpositive.neg_divisor
  cases sign with
  | positive => rwa [apply_positive, apply_positive, Int.cast_natCast, Int.cast_natCast]
  | negative =>
    simp only [apply_negative, Int.cast_neg, Int.cast_natCast, neg_mul]
    exact hsigned.neg

/-- The remainder of a zero is the same zero. -/
theorem remainder_of_value_eq_zero {dividend divisor : Float32}
    (hdividend : dividend.isFinite = true) (hzero : value dividend = 0)
    (hdivisor : value divisor ≠ 0) : remainder dividend divisor = dividend := by
  obtain ⟨sign, hparts⟩ := exists_parts_eq_zero hdividend hzero
  obtain ⟨sign', mantissa', exponent', hpos', hparts', -⟩ := exists_parts_eq_finite hdivisor
  rw [remainder, hparts, hparts']

/-- Remainders are exact, because both operands are multiples of the smaller one of their places. -/
theorem remainder_spec {dividend divisor : Float32} (hdividend : dividend.isFinite = true)
    (hdivisor : value divisor ≠ 0) :
    (remainder dividend divisor).isFinite = true ∧
      IsRemainder (value (remainder dividend divisor)) (value dividend) (value divisor) := by
  rcases eq_or_ne (value dividend) 0 with hzero | hne
  · rw [remainder_of_value_eq_zero hdividend hzero hdivisor, hzero]
    exact ⟨hdividend, by simpa using hdivisor, le_rfl, id, id, 0, by simp⟩
  obtain ⟨sign, mantissa, exponent, hpos, hparts, hlt, hplace, hvalue⟩ := exists_parts_eq_finite hne
  obtain ⟨sign', mantissa', exponent', hpos', hparts', hlt', hplace', hvalue'⟩ :=
    exists_parts_eq_finite hdivisor
  set unit := min exponent exponent'
  have hunit : -149 ≤ unit := le_min hplace hplace'
  rw [← apply_shiftLeft sign mantissa (min_le_left exponent exponent')] at hvalue
  rw [← apply_shiftLeft sign' mantissa' (min_le_right exponent exponent')] at hvalue'
  have hremainder : remainder dividend divisor = ofDyadic sign
      ((mantissa <<< (exponent - unit).toNat) % (mantissa' <<< (exponent' - unit).toNat)) unit := by
    rw [remainder, hparts, hparts']
  have hsmall : mantissa <<< (exponent - unit).toNat < 2 ^ 24 ∨
      mantissa' <<< (exponent' - unit).toNat < 2 ^ 24 := by
    rcases min_choice exponent exponent' with hmin | hmin
    · left
      rwa [show unit = exponent from hmin, sub_self, Int.toNat_zero, Nat.shiftLeft_zero]
    · right
      rwa [show unit = exponent' from hmin, sub_self, Int.toNat_zero, Nat.shiftLeft_zero]
  have hmodulus : 0 < mantissa' <<< (exponent' - unit).toNat := by
    rw [Nat.shiftLeft_eq]
    positivity
  generalize mantissa <<< (exponent - unit).toNat = whole at *
  generalize mantissa' <<< (exponent' - unit).toNat = modulus at *
  have hmod := isRemainder_mod sign sign' whole hmodulus (zpow_pos two_pos unit)
  rw [← hvalue, ← hvalue'] at hmod
  have hdigits : whole % modulus < 2 ^ 24 := by
    rcases hsmall with hwhole | hmodulus'
    · exact (Nat.mod_le _ _).trans_lt hwhole
    · exact (Nat.mod_lt _ hmodulus).trans hmodulus'
  obtain ⟨hfinite, hexact⟩ := (isRounded_ofDyadic sign (whole % modulus) unit).of_grid
    (grid_apply sign hdigits hunit) (hmod.abs_le.trans (abs_value_le dividend))
  rw [hremainder, hexact]
  exact ⟨hfinite, hmod⟩

/-- A number that is smaller than the divisor is its own remainder. -/
theorem remainder_of_abs_lt {dividend divisor : Float32} (hdividend : dividend.isFinite = true)
    (h : |value dividend| < |value divisor|) : remainder dividend divisor = dividend := by
  have hdivisor : value divisor ≠ 0 := abs_pos.mp ((abs_nonneg _).trans_lt h)
  obtain ⟨hfinite, hremainder⟩ := remainder_spec hdividend hdivisor
  rcases eq_or_ne (value dividend) 0 with hzero | hne
  · exact remainder_of_value_eq_zero hdividend hzero hdivisor
  · exact (eq_of_value_eq hdividend hfinite (hremainder.eq_of_abs_lt h) hne).symm

end Lindenmayer.Single
