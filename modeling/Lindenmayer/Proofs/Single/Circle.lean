import Lindenmayer.Proofs.Single.Bounds
import Lindenmayer.Single.Circle

/-!
# Sines and cosines lie within one

The sine and the cosine of a finite single are finite and no further from zero than one
(`within_sin`, `within_cos`). No property of the exact functions is used for that. A fixed-point
series of alternating terms is at most its first term, which is one for a cosine and the angle for a
sine; the angle is at most half of a quarter turn there, and a quarter turn is less than two
(`quarterTurn_le`), as four times the arc tangent of a fifth is less than one. Digits that are
dropped do not lead beyond a power of two (`dropPlaces_le`), and neither does the last rounding.
-/

set_option autoImplicit false

namespace Lindenmayer.Single

/-! ### Fixed-point numbers up to one -/

theorem one_eq : one = 2 ^ fractionBits := Nat.one_shiftLeft fractionBits

theorem arctangentSeries_le (square terms step power : Nat) :
    arctangentSeries square terms step power ≤ power / step := by
  cases terms with
  | zero => exact Nat.zero_le _
  | succ terms => exact Nat.sub_le _ _

/-- A quarter turn is less than two. -/
theorem quarterTurn_le : quarterTurn ≤ 2 * one := by
  have hfifth : arctangentOfReciprocal 5 ≤ one / 5 / 1 := arctangentSeries_le _ _ _ _
  rw [Nat.div_one] at hfifth
  have hmul := Nat.div_mul_le_self one 5
  rw [quarterTurn]
  omega

theorem cosineSeries_le (angle : Nat) : cosineSeries angle ≤ one := alternating_le _ _ _ _

theorem sineSeries_le (angle : Nat) : sineSeries angle ≤ angle := alternating_le _ _ _ _

theorem quadrantSine_le (angle : Nat) : quadrantSine angle ≤ one := by
  have hturn := quarterTurn_le
  rw [quadrantSine]
  split
  · have hsine := sineSeries_le angle
    omega
  · exact cosineSeries_le _

theorem quadrantCosine_le (angle : Nat) : quadrantCosine angle ≤ one := by
  have hturn := quarterTurn_le
  rw [quadrantCosine]
  split
  · exact cosineSeries_le _
  · have hsine := sineSeries_le (quarterTurn - angle)
    omega

theorem log2_le_of_le_two_pow {number places : Nat} (hle : number ≤ 2 ^ places) :
    number.log2 ≤ places := by
  rw [Nat.log2_eq_log_two]
  exact (Nat.log_mono_right hle).trans_eq (Nat.log_pow one_lt_two places)

/-- A number up to a power of two is up to a smaller power without its last digits, also where an
odd digit stands for them, because then the number is not the power itself. -/
theorem dropPlaces_le {number places surplus : Nat} (hle : number ≤ 2 ^ (places + surplus)) :
    dropPlaces number surplus ≤ 2 ^ places := by
  have hpow : 2 ^ (places + surplus) = 2 ^ places * 2 ^ surplus := Nat.pow_add 2 places surplus
  rw [dropPlaces, Nat.shiftLeft_eq, Nat.shiftRight_eq_div_pow]
  split
  · rw [hpow] at hle
    exact Nat.div_le_of_le_mul (by rwa [Nat.mul_comm])
  · next hdropped =>
    have hne : number ≠ 2 ^ places * 2 ^ surplus := by
      rintro rfl
      rw [Nat.mul_div_cancel _ (Nat.two_pow_pos surplus)] at hdropped
      exact hdropped rfl
    have hlt : number / 2 ^ surplus < 2 ^ places :=
      Nat.div_lt_of_lt_mul (by rw [Nat.mul_comm]; omega)
    cases places with
    | zero =>
      rw [pow_zero, Nat.lt_one_iff] at hlt
      rw [hlt]
      decide
    | succ places =>
      exact (Nat.or_lt_two_pow hlt (Nat.one_lt_two_pow (Nat.succ_ne_zero places))).le

/-! ### Sine and cosine -/

/-- A fixed-point number up to one is a single within one. -/
theorem within_ofFixed (negative : Bool) {number : Nat} (hle : number ≤ one) :
    Within 1 (ofFixed negative number) := by
  rw [one_eq] at hle
  obtain ⟨places, hplaces⟩ : ∃ places, fractionBits = places + (number.log2 - 63) := by
    have hlog := log2_le_of_le_two_pow hle
    exact ⟨fractionBits - (number.log2 - 63), by omega⟩
  have hexponent : ((number.log2 - 63 : ℕ) : ℤ) - (fractionBits : ℤ) = -(places : ℤ) := by omega
  rw [hplaces] at hle
  have hkept : (dropPlaces number (number.log2 - 63) : ℚ) ≤ 2 ^ places :=
    mod_cast dropPlaces_le hle
  rw [ofFixed, hexponent]
  refine (isRounded_ofDyadic _ _ _).within (by norm_num) ?_
  rw [abs_mul, ← Int.cast_abs, abs_apply, Int.cast_natCast,
    abs_of_pos (zpow_pos two_pos _), zpow_neg, zpow_natCast, Nat.cast_one]
  exact mul_inv_le_one_of_le₀ hkept (pow_pos two_pos _).le

/-- The sine of a finite number lies between minus one and one. -/
theorem within_sin {angle : Float32} (hfinite : angle.isFinite = true) : Within 1 (sin angle) := by
  rw [sin]
  obtain ⟨sign, hparts, hvalue⟩ | ⟨sign, mantissa, exponent, hpos, hparts, -⟩ :=
    (standsFor_parts hfinite).zero_or_finite
  · rw [hparts]
    exact ⟨hfinite, by rw [hvalue, abs_zero, Nat.cast_one]; exact zero_le_one⟩
  · rw [hparts]
    dsimp only
    split
    · exact within_ofFixed _ (quadrantSine_le _)
    · exact within_ofFixed _ (quadrantCosine_le _)
    · exact within_ofFixed _ (quadrantSine_le _)
    · exact within_ofFixed _ (quadrantCosine_le _)

/-- The cosine of a finite number lies between minus one and one. -/
theorem within_cos {angle : Float32} (hfinite : angle.isFinite = true) : Within 1 (cos angle) := by
  rw [cos]
  obtain ⟨sign, hparts, -⟩ | ⟨sign, mantissa, exponent, hpos, hparts, -⟩ :=
    (standsFor_parts hfinite).zero_or_finite
  · rw [hparts]
    exact within_one
  · rw [hparts]
    dsimp only
    split
    · exact within_ofFixed _ (quadrantCosine_le _)
    · exact within_ofFixed _ (quadrantSine_le _)
    · exact within_ofFixed _ (quadrantCosine_le _)
    · exact within_ofFixed _ (quadrantSine_le _)

end Lindenmayer.Single
