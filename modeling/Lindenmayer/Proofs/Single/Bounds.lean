import Lindenmayer.Proofs.Single.Order
import Lindenmayer.Proofs.Single.Product

/-!
# Singles within a bound

A result of arithmetic is finite if its operands are not too large. `Within` is a bound on a finite
single, on either side of zero, that goes with it through a formula: a product of two singles is
within the product of their bounds, a sum or a difference within the sum of the bounds. The bounds
are small whole numbers, which need no rounding themselves.

What is within zero is one of the two zeros (`within_zero_iff`). A zero times a finite number is a
zero, however large the number is (`within_zero_mul`), and adding a zero changes no finite number
(`add_within_zero`).
-/

set_option autoImplicit false

namespace Lindenmayer.Single

/-- A finite single that is not beyond a bound on either side of zero. -/
structure Within (bound : Nat) (number : Float32) : Prop where
  isFinite : number.isFinite = true
  abs_le : |value number| ≤ bound

/-! ### Bounds that need no rounding -/

/-- A whole bound of at most twenty-four digits is kept by rounding. -/
theorem IsRounded.within {result : Float32} {exact : ℚ} {bound : Nat} (h : IsRounded result exact)
    (hdigits : bound ≤ 2 ^ 24) (hle : |exact| ≤ bound) : Within bound result := by
  have hgrid (whole : ℤ) (hwhole : |whole| ≤ 2 ^ 24) : Grid whole := by
    simpa using grid_of_abs_le hwhole (show -149 ≤ (0 : ℤ) by norm_num)
  have hbound : (bound : ℚ) ≤ largest := by
    have hcast : (bound : ℚ) ≤ 2 ^ 24 := mod_cast hdigits
    exact hcast.trans (by norm_num [largest])
  have hlow : Grid (-bound) := by
    exact_mod_cast hgrid (-bound) (by rw [abs_neg, Nat.abs_cast]; exact_mod_cast hdigits)
  have hhigh : Grid bound := by
    exact_mod_cast hgrid bound (by rw [Nat.abs_cast]; exact_mod_cast hdigits)
  obtain ⟨hexact, hexact'⟩ := abs_le.mp hle
  obtain ⟨hfinite, hvalue, hvalue'⟩ :=
    h.of_between_grid hlow hhigh (neg_le_neg hbound) hbound hexact hexact'
  exact ⟨hfinite, abs_le.mpr ⟨hvalue, hvalue'⟩⟩

theorem within_one : Within 1 1 := ⟨rfl, by rw [value_one, abs_one, Nat.cast_one]⟩

variable {first second : Float32} {bound bound' : Nat}

theorem Within.mul (hfirst : Within bound first) (hsecond : Within bound' second)
    (hdigits : bound * bound' ≤ 2 ^ 24) : Within (bound * bound') (first * second) := by
  refine (isRounded_mul hfirst.isFinite hsecond.isFinite).within hdigits ?_
  rw [abs_mul, Nat.cast_mul]
  exact mul_le_mul hfirst.abs_le hsecond.abs_le (abs_nonneg _) (Nat.cast_nonneg _)

theorem Within.add (hfirst : Within bound first) (hsecond : Within bound' second)
    (hdigits : bound + bound' ≤ 2 ^ 24) : Within (bound + bound') (first + second) := by
  refine (isRounded_add hfirst.isFinite hsecond.isFinite).within hdigits ?_
  rw [Nat.cast_add]
  exact (abs_add_le _ _).trans (add_le_add hfirst.abs_le hsecond.abs_le)

theorem Within.sub (hfirst : Within bound first) (hsecond : Within bound' second)
    (hdigits : bound + bound' ≤ 2 ^ 24) : Within (bound + bound') (first - second) := by
  refine (isRounded_sub hfirst.isFinite hsecond.isFinite).within hdigits ?_
  rw [Nat.cast_add]
  exact (abs_sub _ _).trans (add_le_add hfirst.abs_le hsecond.abs_le)

/-! ### Zeros -/

/-- What is within zero is a zero. -/
theorem within_zero_iff {number : Float32} :
    Within 0 number ↔ number.isFinite = true ∧ value number = 0 := by
  constructor
  · rintro ⟨hfinite, hle⟩
    rw [Nat.cast_zero, abs_nonpos_iff] at hle
    exact ⟨hfinite, hle⟩
  · rintro ⟨hfinite, hvalue⟩
    exact ⟨hfinite, by rw [hvalue, abs_zero, Nat.cast_zero]⟩

theorem within_zero : Within 0 0 := within_zero_iff.mpr ⟨rfl, value_zero⟩

/-- A zero times a finite number is a zero, however large the number is. -/
theorem within_zero_mul (hfirst : Within 0 first) (hsecond : second.isFinite = true) :
    Within 0 (first * second) := by
  refine (isRounded_mul hfirst.isFinite hsecond).within (by norm_num) ?_
  rw [(within_zero_iff.mp hfirst).2, zero_mul, abs_zero, Nat.cast_zero]

/-- Adding a zero does not change a finite number, apart from the sign of a zero. -/
theorem add_within_zero (hfirst : first.isFinite = true) (hsecond : Within 0 second) :
    (first + second).isFinite = true ∧ value (first + second) = value first := by
  obtain ⟨hfinite, hzero⟩ := within_zero_iff.mp hsecond
  have hround := isRounded_add hfirst hfinite
  rw [hzero, add_zero] at hround
  exact hround.of_grid (grid_value first) (abs_value_le first)

end Lindenmayer.Single
