import Lindenmayer.Proofs.Space.Frames

/-!
# Facing a direction, read exactly

With real numbers for scalars, the rotation of a traveller does what it is for. Every direction
other than zero is divided by its length (`Vector3.normalize?_of_ne_zero`), and the side of the
traveller is the horizontal unit vector to the left of his way, or the second axis if his way is
vertical. The way, the side and the vector at right angles to both make a frame whose third vector
does not point down (`Vector3.side_spec`), in every octant and on the vertical axis too. The
rotation carries the coordinate axes onto this frame (`facing_turns_axes_exactly`).
-/

set_option autoImplicit false

namespace Lindenmayer

namespace Vector3

/-! ### Normalizing -/

theorem real_dot_self_nonneg (vector : Vector3 Exact) : 0 ≤ (vector.dot vector).real :=
  add_nonneg (add_nonneg (mul_self_nonneg _) (mul_self_nonneg _)) (mul_self_nonneg _)

theorem real_dot_self_eq_zero_iff {vector : Vector3 Exact} :
    (vector.dot vector).real = 0 ↔ vector = zero := by
  constructor
  · intro hzero
    rw [real_dot] at hzero
    have hx := mul_self_nonneg vector.x.real
    have hy := mul_self_nonneg vector.y.real
    have hz := mul_self_nonneg vector.z.real
    refine ext_real ?_ ?_ ?_
    · exact mul_self_eq_zero.mp (by linarith)
    · exact mul_self_eq_zero.mp (by linarith)
    · exact mul_self_eq_zero.mp (by linarith)
  · rintro rfl
    simp [real_dot, zero]

theorem real_length_pos {vector : Vector3 Exact} (h : vector ≠ zero) : 0 < vector.length.real :=
  Real.sqrt_pos.mpr (lt_of_le_of_ne' vector.real_dot_self_nonneg
    (mt real_dot_self_eq_zero_iff.mp h))

/-- The zero vector is refused. -/
theorem normalize?_zero : (zero : Vector3 Exact).normalize? = none := by
  have hlength : (zero : Vector3 Exact).length.real = 0 := by
    simp [length, real_dot, zero]
  have hnot : ¬ (Scalar.zero : Exact) < Scalar.one / (zero : Vector3 Exact).length := by
    rw [Exact.lt_iff, Exact.real_div, hlength, div_zero]
    exact lt_irrefl 0
  rw [normalize?, decide_eq_false hnot, Bool.and_false, if_neg Bool.false_ne_true]

/-- Every other vector is divided by its length. -/
theorem normalize?_of_ne_zero {vector : Vector3 Exact} (h : vector ≠ zero) :
    vector.normalize? = some (vector.scale (Scalar.one / vector.length)) := by
  have hpos : (Scalar.zero : Exact) < Scalar.one / vector.length := by
    rw [Exact.lt_iff, Exact.real_div]
    exact div_pos one_pos (real_length_pos h)
  have hfinite : Scalar.isFinite (Scalar.one / vector.length : Exact) = true := rfl
  rw [normalize?, hfinite, decide_eq_true hpos, Bool.and_true, if_pos rfl]

theorem dot_normalized {vector : Vector3 Exact} (h : vector ≠ zero) :
    (vector.scale (Scalar.one / vector.length)).dot (vector.scale (Scalar.one / vector.length)) =
      Scalar.one := by
  have hlength := real_length_pos h
  have hsquare : vector.length.real * vector.length.real = (vector.dot vector).real :=
    Real.mul_self_sqrt vector.real_dot_self_nonneg
  refine Exact.ext ?_
  simp only [real_dot, scale, Exact.real_mul, Exact.real_div, Exact.real_one] at hsquare ⊢
  field_simp
  linarith

/-! ### Sides -/

/-- The side of a traveller who goes along a unit vector. -/
noncomputable def side (forward : Vector3 Exact) : Vector3 Exact :=
  (unitZ.cross forward).normalize?.getD unitY

/-- The horizontal vector to the left of a vector. -/
theorem real_unitZ_cross (forward : Vector3 Exact) :
    (unitZ.cross forward).x.real = -forward.y.real ∧ (unitZ.cross forward).y.real = forward.x.real ∧
      (unitZ.cross forward).z.real = 0 := by
  simp [cross, unitZ]

/-- On the vertical axis the second axis is the side, and what is up points along the first. -/
theorem side_spec_of_vertical {forward : Vector3 Exact} (h : forward.dot forward = Scalar.one)
    (hvertical : unitZ.cross forward = zero) :
    IsFrame forward forward.side (forward.cross forward.side) ∧
      forward.side.z = Scalar.zero ∧ Scalar.zero ≤ (forward.cross forward.side).z := by
  obtain ⟨hx, hy, -⟩ := real_unitZ_cross forward
  have hside : forward.side = unitY := by
    rw [side, hvertical, normalize?_zero, Option.getD_none]
  have hx_zero : forward.x.real = 0 := by
    rw [← hy, hvertical]
    rfl
  have hy_zero : forward.y.real = 0 := by
    rw [← neg_eq_zero, ← hx, hvertical]
    rfl
  rw [hside]
  refine ⟨⟨h, Exact.ext ?_, Exact.ext ?_, rfl⟩, rfl, Exact.le_iff _ _ |>.mpr ?_⟩
  · simp [real_dot, unitY]
  · simp [real_dot, unitY, hy_zero]
  · simp [cross, unitY, hx_zero]

/-- Off the vertical axis the third coordinate of what is up is the horizontal part of the way, up
to a positive factor. -/
theorem side_spec_of_not_vertical {forward : Vector3 Exact} (h : forward.dot forward = Scalar.one)
    (hvertical : unitZ.cross forward ≠ zero) :
    IsFrame forward forward.side (forward.cross forward.side) ∧
      forward.side.z = Scalar.zero ∧ Scalar.zero ≤ (forward.cross forward.side).z := by
  obtain ⟨hx, hy, hz⟩ := real_unitZ_cross forward
  have hside : forward.side =
      (unitZ.cross forward).scale (Scalar.one / (unitZ.cross forward).length) := by
    rw [side, normalize?_of_ne_zero hvertical, Option.getD_some]
  have hunit := dot_normalized hvertical
  have hfactor : 0 < (Scalar.one / (unitZ.cross forward).length : Exact).real :=
    div_pos one_pos (real_length_pos hvertical)
  rw [← hside] at hunit
  generalize (Scalar.one / (unitZ.cross forward).length : Exact) = factor at hside hfactor
  have hside_x : forward.side.x.real = -forward.y.real * factor.real := by
    rw [hside, ← hx]
    rfl
  have hside_y : forward.side.y.real = forward.x.real * factor.real := by
    rw [hside, ← hy]
    rfl
  have hside_z : forward.side.z.real = 0 := by
    rw [hside, ← zero_mul factor.real, ← hz]
    rfl
  have hup : (forward.cross forward.side).z.real =
      factor.real * (forward.x.real * forward.x.real + forward.y.real * forward.y.real) := by
    change forward.x.real * forward.side.y.real - forward.side.x.real * forward.y.real = _
    rw [hside_x, hside_y]
    ring
  refine ⟨⟨h, hunit, Exact.ext ?_, rfl⟩, Exact.ext hside_z, ?_⟩
  · rw [real_dot, hside_x, hside_y, hside_z, Exact.real_zero]
    ring
  · rw [Exact.le_iff, hup]
    exact mul_nonneg hfactor.le (add_nonneg (mul_self_nonneg _) (mul_self_nonneg _))

/-- The way, the side and the vector at right angles to both are a frame. Its second vector is
horizontal, and its third does not point down. -/
theorem side_spec {forward : Vector3 Exact} (h : forward.dot forward = Scalar.one) :
    IsFrame forward forward.side (forward.cross forward.side) ∧
      forward.side.z = Scalar.zero ∧ Scalar.zero ≤ (forward.cross forward.side).z := by
  by_cases hvertical : unitZ.cross forward = zero
  · exact side_spec_of_vertical h hvertical
  · exact side_spec_of_not_vertical h hvertical

end Vector3

/-! ### Directions -/

theorem Rotor.facing?_zero : Rotor.facing? (Vector3.zero : Vector3 Exact) = none := by
  rw [Rotor.facing?, Vector3.normalize?_zero]
  rfl

/-- Any other direction is faced by the rotor of the frame of its way and its side. -/
theorem Rotor.facing?_of_ne_zero {direction : Vector3 Exact} (h : direction ≠ Vector3.zero) :
    let forward := direction.scale (Scalar.one / direction.length)
    Rotor.facing? direction =
      some (Rotor.ofAxes forward forward.side (forward.cross forward.side)) := by
  rw [Rotor.facing?, Vector3.normalize?_of_ne_zero h]
  rfl

/-- The account of the rotation that faces a direction, with real numbers for scalars.

There is none exactly for the zero direction. For any other direction it is a unit rotor that
carries the first axis onto the direction divided by its length, the second onto a horizontal
vector, and the third onto a vector that does not point down.

The conversion from three axes, whatever they are, takes the products with the pivot it chooses and
divides them by twice the root of the pivot's own product, which is at least one. -/
theorem facing_turns_axes_exactly (direction : Vector3 Exact) :
    (Rotor.facing? direction = none ↔ direction = Vector3.zero) ∧
      (direction ≠ Vector3.zero → ∃ rotor, Rotor.facing? direction = some rotor ∧ rotor.IsUnit ∧
        rotor.rotate Vector3.unitX = direction.scale (Scalar.one / direction.length) ∧
        (rotor.rotate Vector3.unitY).z = Scalar.zero ∧
        Scalar.zero ≤ (rotor.rotate Vector3.unitZ).z) ∧
      ∀ first second third : Vector3 Exact,
        let pivot := Rotor.pivot first second third
        Rotor.ofAxes first second third = Rotor.ofPivot first second third pivot ∧
          1 ≤ Rotor.product first second third pivot pivot := by
  refine ⟨⟨fun hnone ↦ ?_, ?_⟩, fun hne ↦ ?_, fun first second third ↦
    ⟨Rotor.ofAxes_eq first second third, Rotor.one_le_product_pivot first second third⟩⟩
  · by_contra hne
    rw [Rotor.facing?_of_ne_zero hne] at hnone
    cases hnone
  · rintro rfl
    exact Rotor.facing?_zero
  · obtain ⟨hframe, hlevel, hup⟩ := Vector3.side_spec (Vector3.dot_normalized hne)
    obtain ⟨hfirst, hsecond, hthird⟩ := hframe.rotate_ofAxes
    refine ⟨_, Rotor.facing?_of_ne_zero hne, hframe.isUnit_ofAxes, hfirst, ?_, ?_⟩
    · rw [hsecond]
      exact hlevel
    · rw [hthird]
      exact hup

/-- A traveller who goes straight down faces down, with his side level. -/
theorem facing_straight_down :
    let down : Vector3 Exact := ⟨⟨0⟩, ⟨0⟩, ⟨-2⟩⟩
    down ≠ Vector3.zero ∧ ∃ rotor, Rotor.facing? down = some rotor ∧ rotor.IsUnit ∧
      rotor.rotate Vector3.unitX = ⟨⟨0⟩, ⟨0⟩, ⟨-1⟩⟩ ∧
      (rotor.rotate Vector3.unitY).z = Scalar.zero := by
  intro down
  have hne : down ≠ Vector3.zero := fun hzero ↦ by
    have hz : (-2 : ℝ) = 0 := congrArg (fun vector ↦ vector.z.real) hzero
    norm_num at hz
  have hlength : down.length.real = 2 := by
    have hsquare : (down.dot down).real = 2 * 2 := by
      rw [Vector3.real_dot]
      norm_num [down]
    rw [Vector3.length, Exact.real_sqrt, hsquare]
    exact Real.sqrt_mul_self zero_le_two
  obtain ⟨-, hfacing, -⟩ := facing_turns_axes_exactly down
  obtain ⟨rotor, hrotor, hunit, hfirst, hsecond, -⟩ := hfacing hne
  refine ⟨hne, rotor, hrotor, hunit, hfirst.trans (Vector3.ext_real ?_ ?_ ?_), hsecond⟩
  all_goals
    rw [Vector3.scale, Exact.real_mul, Exact.real_div, hlength]
    norm_num [down]

end Lindenmayer
