import Lindenmayer.Proofs.Single.Arithmetic

/-!
# Products and quotients of singles

The product of two finite singles is the exact one, rounded once (`isRounded_mul`): the mantissas
are multiplied and the exponents added, and since an operand with fewer than twenty-four digits has
the smallest place, no digit of the last place is missing from the product (`add_le_lastPlace`).

So is the quotient by a single other than zero (`isRounded_div`). The dividend is written with
enough digits that the whole part of the division reaches down to the last place of the quotient
(`sub_le_lastPlace`), and the remainder decides the two bits behind it (`represents_fraction`).
-/

set_option autoImplicit false

namespace Lindenmayer.Single

open Float.Model (Format UnpackedFloat totalExponent)
open Float.Model.UnpackedFloat

/-! ### Signs -/

theorem apply_one_mul (sign sign' : Sign) :
    ((sign * sign').apply 1 : ℚ) = sign.apply 1 * sign'.apply 1 := by
  cases sign <;> cases sign' <;> norm_num [Sign.apply]

theorem apply_one_div (sign sign' : Sign) :
    ((sign / sign').apply 1 : ℚ) = sign.apply 1 / sign'.apply 1 := by
  have hdiv : sign / sign' = sign * sign' := by cases sign <;> cases sign' <;> rfl
  rw [hdiv]
  cases sign <;> cases sign' <;> norm_num [Sign.apply]

/-- A finite number other than zero is its magnitude with its sign. -/
theorem exactValue_eq (sign : Sign) {mantissa : Nat} (exponent : ℤ) (hpos : 0 < mantissa) :
    exactValue (.finite sign mantissa exponent hpos) =
      sign.apply 1 * (mantissa * 2 ^ exponent) := by
  rw [exactValue, apply_eq, Int.cast_natCast, mul_assoc]

/-! ### Products -/

theorem log_magnitude {mantissa : Nat} (hpos : 0 < mantissa) (exponent : ℤ) :
    Int.log 2 ((mantissa : ℚ) * 2 ^ exponent) = mantissa.log2 + exponent :=
  log_eq hpos (by positivity) (floor_magnitude mantissa exponent)

/-- No digit of a product of canonical numbers is missing down to its last place. -/
theorem add_le_lastPlace {mantissa mantissa' : Nat} {exponent exponent' : ℤ} (hpos : 0 < mantissa)
    (hpos' : 0 < mantissa') (hdigits : 2 ^ 23 ≤ mantissa ∨ exponent = -149)
    (hdigits' : 2 ^ 23 ≤ mantissa' ∨ exponent' = -149) :
    exponent + exponent' ≤
      lastPlace ((mantissa * mantissa' : ℕ) * 2 ^ (exponent + exponent')) := by
  have hproduct : 0 < mantissa * mantissa' := Nat.mul_pos hpos hpos'
  rw [lastPlace, abs_of_pos (by positivity), log_magnitude hproduct]
  by_cases hplaces : exponent = -149 ∧ exponent' = -149
  · omega
  · have hlarge : 2 ^ 23 ≤ mantissa * mantissa' := by
      rcases hdigits with hlarge | hplace
      · exact hlarge.trans (Nat.le_mul_of_pos_right _ hpos')
      · have hlarge' : 2 ^ 23 ≤ mantissa' := hdigits'.resolve_right fun hplace' ↦
          hplaces ⟨hplace, hplace'⟩
        exact hlarge'.trans (Nat.le_mul_of_pos_left _ hpos)
    have hlog : 23 ≤ (mantissa * mantissa').log2 := (Nat.le_log2 hproduct.ne').mpr hlarge
    omega

/-- Multiplication of canonical numbers. -/
theorem StandsFor.mul {first second : UnpackedFloat} {number number' : ℚ}
    (hfirst : StandsFor first number) (hsecond : StandsFor second number') :
    StandsFor (UnpackedFloat.mul Format.binary32 first second) (nearest (number * number')) := by
  obtain ⟨sign, rfl, rfl⟩ | ⟨sign, mantissa, exponent, hpos, rfl, rfl⟩ := hfirst.zero_or_finite
  · rw [zero_mul, nearest_zero]
    obtain ⟨sign', rfl, -⟩ | ⟨sign', mantissa', exponent', hpos', rfl, -⟩ := hsecond.zero_or_finite
    · exact ⟨trivial, rfl, rfl⟩
    · exact ⟨trivial, rfl, rfl⟩
  · obtain ⟨sign', rfl, rfl⟩ | ⟨sign', mantissa', exponent', hpos', rfl, rfl⟩ :=
      hsecond.zero_or_finite
    · rw [mul_zero, nearest_zero]
      exact ⟨trivial, rfl, rfl⟩
    · have hvalue : exactValue (.finite sign mantissa exponent hpos) *
          exactValue (.finite sign' mantissa' exponent' hpos') =
          (sign * sign').apply 1 * ((mantissa * mantissa' : ℕ) * 2 ^ (exponent + exponent')) := by
        rw [exactValue_eq, exactValue_eq, apply_one_mul, zpow_add₀ two_ne_zero, Nat.cast_mul]
        ring
      rw [hvalue]
      refine standsFor_roundWithAccuracy (sign * sign') (by positivity)
        (add_le_lastPlace hpos hpos' hfirst.canonical.2.2 hsecond.canonical.2.2) ?_
      rw [mul_div_cancel_right₀ _ (zpow_ne_zero _ two_ne_zero)]
      exact represents_exact _

theorem isRounded_mul {first second : Float32} (hfirst : first.isFinite = true)
    (hsecond : second.isFinite = true) :
    IsRounded (first * second) (value first * value second) :=
  ((standsFor_parts hfirst).mul (standsFor_parts hsecond)).isRounded_pack

/-! ### Quotients -/

/-- The remainder of a division decides the two bits behind its whole part. -/
theorem represents_fraction (dividend : Nat) {divisor : Nat} (hpos : 0 < divisor) :
    Represents (.ofMantissaAndAccuracy (dividend / divisor)
      (accuracyOfFraction (dividend % divisor) divisor)) (dividend / divisor) := by
  have hdivisor : (0 : ℚ) < divisor := mod_cast hpos
  have hdivision :
      (dividend : ℚ) / divisor = (dividend / divisor : ℕ) + (dividend % divisor : ℕ) / divisor := by
    rw [div_eq_iff hdivisor.ne', add_mul, div_mul_cancel₀ _ hdivisor.ne', mul_comm]
    exact_mod_cast (Nat.div_add_mod dividend divisor).symm
  have hlt : ((dividend % divisor : ℕ) : ℚ) < divisor := mod_cast Nat.mod_lt dividend hpos
  rw [hdivision, accuracyOfFraction]
  generalize dividend % divisor = rest at *
  generalize dividend / divisor = whole at *
  split_ifs with hzero
  · rw [hzero, Nat.cast_zero, zero_div, add_zero]
    exact represents_exact whole
  have hrest : 0 < (rest : ℚ) / divisor := div_pos (mod_cast Nat.pos_of_ne_zero hzero) hdivisor
  have hone : (rest : ℚ) / divisor < 1 := (div_lt_one hdivisor).mpr hlt
  rcases lt_trichotomy (2 * rest) divisor with hside | hside | hside
  · have hhalf : (rest : ℚ) / divisor < 1 / 2 := by
      rw [div_lt_div_iff₀ hdivisor two_pos, one_mul, mul_comm]
      exact_mod_cast hside
    rw [compare_lt_iff_lt.mpr hside]
    exact ⟨by linarith, by linarith⟩
  · have hhalf : (rest : ℚ) / divisor = 1 / 2 := by
      rw [div_eq_div_iff hdivisor.ne' two_ne_zero, one_mul, mul_comm]
      exact_mod_cast hside
    rw [compare_eq_iff_eq.mpr hside, hhalf]
    rfl
  · have hhalf : 1 / 2 < (rest : ℚ) / divisor := by
      rw [div_lt_div_iff₀ two_pos hdivisor, one_mul, mul_comm]
      exact_mod_cast hside
    rw [compare_gt_iff_gt.mpr hside]
    exact ⟨by linarith, by linarith⟩

/-- The place to which a quotient is worked out is not behind its last place. -/
theorem sub_le_lastPlace {mantissa mantissa' : Nat} (exponent exponent' : ℤ) (hpos : 0 < mantissa)
    (hpos' : 0 < mantissa') :
    Format.binary32.targetExponent (totalExponent mantissa exponent -
        totalExponent mantissa' exponent') ≤
      lastPlace (mantissa * 2 ^ exponent / (mantissa' * 2 ^ exponent')) := by
  have hmagnitude : (0 : ℚ) < mantissa * 2 ^ exponent := by positivity
  have hmagnitude' : (0 : ℚ) < mantissa' * 2 ^ exponent' := by positivity
  have hquotient := div_pos hmagnitude hmagnitude'
  have hlog : mantissa.log2 + exponent - (mantissa'.log2 + exponent' + 1) ≤
      Int.log 2 ((mantissa : ℚ) * 2 ^ exponent / (mantissa' * 2 ^ exponent')) := by
    have hdividend := Int.zpow_log_le_self one_lt_two hmagnitude
    have hdivisor := Int.lt_zpow_succ_log_self one_lt_two ((mantissa' : ℚ) * 2 ^ exponent')
    rw [log_magnitude hpos, Nat.cast_two] at hdividend
    rw [log_magnitude hpos', Nat.cast_two] at hdivisor
    rw [← Int.zpow_le_iff_le_log one_lt_two hquotient, Nat.cast_two, zpow_sub₀ two_ne_zero]
    exact div_le_div₀ hmagnitude.le hdividend hmagnitude' hdivisor.le
  rw [lastPlace, abs_of_pos hquotient, targetExponent_binary32, totalExponent, totalExponent]
  omega

/-- Division of magnitudes, with a sign for the quotient. -/
theorem standsFor_divCore (sign : Sign) {mantissa mantissa' : Nat} (exponent exponent' : ℤ)
    (hpos : 0 < mantissa) (hpos' : 0 < mantissa') :
    StandsFor (roundWithAccuracy Format.binary32 sign
        (divCore Format.binary32 mantissa exponent mantissa' exponent').1
        (divCore Format.binary32 mantissa exponent mantissa' exponent').2.1
        (divCore Format.binary32 mantissa exponent mantissa' exponent').2.2)
      (nearest (sign.apply 1 * (mantissa * 2 ^ exponent / (mantissa' * 2 ^ exponent')))) := by
  have hplace := sub_le_lastPlace exponent exponent' hpos hpos'
  rw [divCore]
  dsimp only
  generalize Format.binary32.targetExponent _ = target at *
  obtain ⟨digits, hdigits⟩ : ∃ digits : Nat,
      digits = (exponent - exponent' - min (exponent - exponent') target).toNat := ⟨_, rfl⟩
  have hplaces : min (exponent - exponent') target = exponent - exponent' - digits := by omega
  have hquotient : (mantissa : ℚ) * 2 ^ exponent / (mantissa' * 2 ^ exponent') /
      2 ^ min (exponent - exponent') target = (mantissa <<< digits : ℕ) / mantissa' := by
    rw [hplaces, zpow_sub₀ two_ne_zero, zpow_sub₀ two_ne_zero, zpow_natCast, Nat.shiftLeft_eq]
    push_cast
    field_simp
  rw [← hdigits]
  refine standsFor_roundWithAccuracy sign (by positivity) ((min_le_right _ _).trans hplace) ?_
  rw [hquotient]
  exact represents_fraction _ hpos'

/-- Division of canonical numbers. -/
theorem StandsFor.div {first second : UnpackedFloat} {number number' : ℚ}
    (hfirst : StandsFor first number) (hsecond : StandsFor second number') (hne : number' ≠ 0) :
    StandsFor (UnpackedFloat.div Format.binary32 first second) (nearest (number / number')) := by
  obtain ⟨sign', rfl, rfl⟩ | ⟨sign', mantissa', exponent', hpos', rfl, rfl⟩ :=
    hsecond.zero_or_finite
  · exact absurd rfl hne
  obtain ⟨sign, rfl, rfl⟩ | ⟨sign, mantissa, exponent, hpos, rfl, rfl⟩ := hfirst.zero_or_finite
  · rw [zero_div, nearest_zero]
    exact ⟨trivial, rfl, rfl⟩
  have hvalue : exactValue (.finite sign mantissa exponent hpos) /
      exactValue (.finite sign' mantissa' exponent' hpos') =
      (sign / sign').apply 1 * (mantissa * 2 ^ exponent / (mantissa' * 2 ^ exponent')) := by
    rw [exactValue_eq, exactValue_eq, apply_one_div, mul_div_mul_comm]
  rw [hvalue]
  exact standsFor_divCore (sign / sign') exponent exponent' hpos hpos'

theorem isRounded_div {first second : Float32} (hfirst : first.isFinite = true)
    (hsecond : second.isFinite = true) (hne : value second ≠ 0) :
    IsRounded (first / second) (value first / value second) :=
  ((standsFor_parts hfirst).div (standsFor_parts hsecond) hne).isRounded_pack

/-! ### Neutral factors -/

section Neutral

variable {number : Float32} (hfinite : number.isFinite = true)

include hfinite

theorem mul_one_spec : (number * 1).isFinite = true ∧ value (number * 1) = value number := by
  have hround := isRounded_mul hfinite isFinite_one
  rw [value_one, mul_one] at hround
  exact hround.of_grid (grid_value number) (abs_value_le number)

theorem one_mul_spec : (1 * number).isFinite = true ∧ value (1 * number) = value number := by
  have hround := isRounded_mul isFinite_one hfinite
  rw [value_one, one_mul] at hround
  exact hround.of_grid (grid_value number) (abs_value_le number)

theorem mul_zero_spec : (number * 0).isFinite = true ∧ value (number * 0) = 0 := by
  have hround := isRounded_mul hfinite isFinite_zero
  rw [value_zero, mul_zero] at hround
  exact hround.of_grid grid_zero (by norm_num [largest])

/-- A number that is not zero goes into itself exactly once. -/
theorem div_self_eq_one (hne : value number ≠ 0) : number / number = 1 := by
  have hround := isRounded_div hfinite hfinite hne
  rw [div_self hne] at hround
  obtain ⟨hfinite', hvalue⟩ := hround.of_grid (value_one ▸ grid_value 1) (by norm_num [largest])
  exact eq_of_value_eq hfinite' rfl (hvalue.trans value_one.symm) (hvalue ▸ one_ne_zero)

end Neutral

end Lindenmayer.Single
