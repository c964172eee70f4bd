import Lindenmayer.Proofs.Single.Root
import Lindenmayer.Space.Vector

/-!
# Vectors that can be normalized

A vector is normalized by the reciprocal of its length, and the length comes from a sum of squares.
The squares of singles leave the range of singles at both ends: a coordinate up to `2 ^ (-75)` has a
square that is rounded to zero, and one from `2 ^ 64` on has an infinite one. The root brings the
exponent back, and so does its reciprocal, but what is lost in the sum is lost.

`Vector3.normalize?_eq_none_iff` says that a vector is refused exactly when the sum of its squares
is not a finite positive number. The sum is zero exactly if all coordinates are small
(`Vector3.dot_self_pos_iff`); it is finite if they are up to `2 ^ 63` (`Vector3.isFinite_dot_self`)
and infinite if one of them reaches `2 ^ 64` (`Vector3.abs_lt_of_isFinite_dot_self`).
-/

set_option autoImplicit false

namespace Lindenmayer

open Single

namespace Vector3

/-! ### Coordinates -/

/-- The coordinates of a vector in order. -/
def coordinates {α : Type} (vector : Vector3 α) : List α := [vector.x, vector.y, vector.z]

theorem forall_mem_coordinates {α : Type} {vector : Vector3 α} {property : α → Prop} :
    (∀ coordinate ∈ vector.coordinates, property coordinate) ↔
      property vector.x ∧ property vector.y ∧ property vector.z := by
  simp [coordinates]

/-- No coordinate is infinite or undefined. -/
def IsFinite (vector : Point) : Prop :=
  ∀ coordinate ∈ vector.coordinates, coordinate.isFinite = true

instance (vector : Point) : Decidable vector.IsFinite :=
  inferInstanceAs (Decidable (∀ coordinate ∈ vector.coordinates, coordinate.isFinite = true))

/-- Finite vectors are equal if their coordinates have the same values. -/
theorem beq_iff {first second : Point} (hfirst : first.IsFinite) (hsecond : second.IsFinite) :
    (first == second) = true ↔ value first.x = value second.x ∧ value first.y = value second.y ∧
      value first.z = value second.z := by
  obtain ⟨hfirst_x, hfirst_y, hfirst_z⟩ := forall_mem_coordinates.mp hfirst
  obtain ⟨hsecond_x, hsecond_y, hsecond_z⟩ := forall_mem_coordinates.mp hsecond
  have hbeq : (first == second) = (first.x == second.x && (first.y == second.y &&
    first.z == second.z)) := rfl
  rw [hbeq, Bool.and_eq_true, Bool.and_eq_true, Single.beq_iff hfirst_x hsecond_x,
    Single.beq_iff hfirst_y hsecond_y, Single.beq_iff hfirst_z hsecond_z]

/-- No coordinate is beyond a bound on either side of zero. -/
def Within (bound : ℚ) (vector : Point) : Prop :=
  ∀ coordinate ∈ vector.coordinates, |value coordinate| ≤ bound

/-! ### Refusals -/

/-- A vector is refused unless the sum of its squares is finite and positive. -/
theorem normalize?_eq_none_iff (vector : Point) :
    vector.normalize? = none ↔
      ¬ ((vector.dot vector).isFinite = true ∧ 0 < value (vector.dot vector)) := by
  change (if (1 / (vector.dot vector).sqrt).isFinite && decide (0 < 1 / (vector.dot vector).sqrt)
    then some (vector.scale (1 / (vector.dot vector).sqrt)) else none) = none ↔ _
  rw [ite_eq_right_iff, imp_iff_not (Option.some_ne_none _), Bool.and_eq_true, decide_eq_true_iff,
    not_iff_not]
  constructor
  · rintro ⟨hfinite, hpos⟩
    exact of_reciprocal_sqrt_pos hfinite hpos
  · rintro ⟨-, hpos⟩
    obtain ⟨hfinite, hpos⟩ := reciprocal_sqrt_pos hpos
    exact ⟨hfinite, (lt_iff rfl hfinite).mpr hpos⟩

/-! ### Sums of squares -/

theorem isRounded_sq {number : Float32} (h : number.isFinite = true) :
    IsRounded (number * number) (value number ^ 2) := by
  rw [sq]
  exact isRounded_mul h h

/-- The squares that are rounded to zero. -/
theorem nearest_sq_eq_zero_iff {number : ℚ} :
    nearest (number ^ 2) = 0 ↔ |number| ≤ 2 ^ (-75 : ℤ) := by
  have hsquare : (2 : ℚ) ^ (-150 : ℤ) = (2 ^ (-75 : ℤ)) ^ 2 := by norm_num
  rw [nearest_eq_zero_iff, abs_pow, hsquare,
    pow_le_pow_iff_left₀ (abs_nonneg _) (zpow_pos two_pos _).le two_ne_zero]

/-- A rounded sum of numbers that are not below zero is zero only if all of them are. -/
theorem nearest_add_eq_zero_iff {first second : ℚ} (hfirst : Grid first) (hsecond : Grid second)
    (hnonneg : 0 ≤ first) (hnonneg' : 0 ≤ second) :
    nearest (first + second) = 0 ↔ first = 0 ∧ second = 0 := by
  constructor
  · intro hzero
    have hle := nearest_mono (le_add_of_nonneg_right (a := first) hnonneg')
    have hle' := nearest_mono (le_add_of_nonneg_left (a := second) hnonneg)
    rw [nearest_of_grid hfirst, hzero] at hle
    rw [nearest_of_grid hsecond, hzero] at hle'
    exact ⟨hle.antisymm hnonneg, hle'.antisymm hnonneg'⟩
  · rintro ⟨rfl, rfl⟩
    rw [add_zero, nearest_zero]

/-- A number whose square is finite is below `2 ^ 64`. -/
theorem abs_lt_of_isFinite_sq {number : Float32} (h : number.isFinite = true)
    (hsquare : (number * number).isFinite = true) : |value number| < 2 ^ (64 : ℤ) := by
  by_contra hle
  have hlarge : (2 : ℚ) ^ (128 : ℤ) ≤ value number ^ 2 := by
    rw [← sq_abs]
    exact le_trans (by norm_num) (pow_le_pow_left₀ (zpow_pos two_pos _).le (not_lt.mp hle) 2)
  have hnearest := nearest_mono hlarge
  rw [nearest_zpow (by norm_num), ← (isRounded_sq h).value_eq hsquare] at hnearest
  have hfits := (le_abs_self _).trans (abs_value_le (number * number))
  exact absurd (hnearest.trans hfits) (by norm_num [largest])

variable {vector : Point}

/-- A sum of squares is finite only if all of them are. -/
theorem isFinite_of_dot_self (h : (vector.dot vector).isFinite = true) :
    (vector.x * vector.x).isFinite = true ∧ (vector.y * vector.y).isFinite = true ∧
      (vector.x * vector.x + vector.y * vector.y).isFinite = true ∧
      (vector.z * vector.z).isFinite = true := by
  obtain ⟨hsum, hz⟩ := isFinite_of_add
    (show ((vector.x * vector.x + vector.y * vector.y) + vector.z * vector.z).isFinite = true
      from h)
  obtain ⟨hx, hy⟩ := isFinite_of_add hsum
  exact ⟨hx, hy, hsum, hz⟩

/-- A coordinate that reaches `2 ^ 64` makes the sum of the squares infinite. -/
theorem abs_lt_of_isFinite_dot_self (hfinite : vector.IsFinite)
    (h : (vector.dot vector).isFinite = true) :
    ∀ coordinate ∈ vector.coordinates, |value coordinate| < 2 ^ (64 : ℤ) := by
  obtain ⟨hx, hy, hz⟩ := forall_mem_coordinates.mp hfinite
  obtain ⟨hxx, hyy, -, hzz⟩ := isFinite_of_dot_self h
  exact forall_mem_coordinates.mpr ⟨abs_lt_of_isFinite_sq hx hxx, abs_lt_of_isFinite_sq hy hyy,
    abs_lt_of_isFinite_sq hz hzz⟩

/-- A sum of the squares of coordinates up to `2 ^ 63` is finite. -/
theorem isFinite_dot_self (hfinite : vector.IsFinite) (h : vector.Within (2 ^ (63 : ℤ))) :
    (vector.dot vector).isFinite = true := by
  obtain ⟨hx, hy, hz⟩ := forall_mem_coordinates.mp hfinite
  obtain ⟨hx_le, hy_le, hz_le⟩ := forall_mem_coordinates.mp h
  have square {number : Float32} (hnumber : number.isFinite = true)
      (hle : |value number| ≤ 2 ^ (63 : ℤ)) : (number * number).isFinite = true ∧
        0 ≤ value (number * number) ∧ value (number * number) ≤ 2 ^ (126 : ℤ) := by
    refine (isRounded_sq hnumber).of_between_grid grid_zero (grid_zpow (by norm_num))
      (by norm_num [largest]) (by norm_num [largest]) (sq_nonneg _) ?_
    rw [← sq_abs]
    exact (pow_le_pow_left₀ (abs_nonneg _) hle 2).trans (by norm_num)
  obtain ⟨hxx, hxx_nonneg, hxx_le⟩ := square hx hx_le
  obtain ⟨hyy, hyy_nonneg, hyy_le⟩ := square hy hy_le
  obtain ⟨hzz, hzz_nonneg, hzz_le⟩ := square hz hz_le
  obtain ⟨hsum, hsum_nonneg, hsum_le⟩ := (isRounded_add hxx hyy).of_between_grid grid_zero
    (grid_zpow (show -149 ≤ (127 : ℤ) by norm_num)) (by norm_num [largest])
    (by norm_num [largest]) (add_nonneg hxx_nonneg hyy_nonneg)
    ((add_le_add hxx_le hyy_le).trans (by norm_num))
  refine ((isRounded_add hsum hzz).of_abs_lt ?_).1
  rw [abs_of_nonneg (add_nonneg hsum_nonneg hzz_nonneg)]
  exact (add_le_add hsum_le hzz_le).trans_lt (by norm_num)

/-- A finite sum of squares is positive unless all coordinates are small. -/
theorem dot_self_pos_iff (hfinite : vector.IsFinite) (h : (vector.dot vector).isFinite = true) :
    0 < value (vector.dot vector) ↔ ¬ vector.Within (2 ^ (-75 : ℤ)) := by
  obtain ⟨hx, hy, hz⟩ := forall_mem_coordinates.mp hfinite
  obtain ⟨hxx, hyy, hsum, hzz⟩ := isFinite_of_dot_self h
  have hdot : value (vector.dot vector) = _ := (isRounded_add hsum hzz).value_eq h
  rw [(isRounded_add hxx hyy).value_eq hsum, (isRounded_sq hx).value_eq hxx,
    (isRounded_sq hy).value_eq hyy, (isRounded_sq hz).value_eq hzz] at hdot
  have hnonneg (number : ℚ) : 0 ≤ nearest (number ^ 2) := nearest_nonneg (sq_nonneg number)
  have hnonneg_sum :=
    nearest_nonneg (add_nonneg (hnonneg (value vector.x)) (hnonneg (value vector.y)))
  have hzero : value (vector.dot vector) = 0 ↔ vector.Within (2 ^ (-75 : ℤ)) := by
    rw [hdot, nearest_add_eq_zero_iff (grid_nearest _) (grid_nearest _) hnonneg_sum (hnonneg _),
      nearest_add_eq_zero_iff (grid_nearest _) (grid_nearest _) (hnonneg _) (hnonneg _), and_assoc,
      Within, forall_mem_coordinates, nearest_sq_eq_zero_iff, nearest_sq_eq_zero_iff,
      nearest_sq_eq_zero_iff]
  rw [← hzero, hdot]
  exact (nearest_nonneg (add_nonneg hnonneg_sum (hnonneg _))).lt_iff_ne'

end Vector3

end Lindenmayer
