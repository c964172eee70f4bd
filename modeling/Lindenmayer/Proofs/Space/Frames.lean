import Lindenmayer.Space.Rotor
import Mathlib

/-!
# The rotor of a frame, read exactly

Vectors and rotors are written for any scalars. Here the scalars are the real numbers (`Exact`), so
that the formulas are judged free of rounding.

A rotor that carries the coordinate axes onto a right-handed frame (`IsFrame`) has components whose
products are known from the coordinates of the frame: `Rotor.product` is four times the product of
two of them. Whichever component is chosen as the pivot, its row of products is the whole rotor up
to a factor, because the table of products has rank one (`IsFrame.product_mul_product`). The
conversion `Rotor.ofAxes` picks a pivot whose square is at least a quarter, so that the root is
taken of a number that is at least one, for any three vectors (`Rotor.one_le_product_pivot`). What
it returns for a frame is a unit rotor (`IsFrame.isUnit_ofAxes`) that carries the axes onto the
frame (`IsFrame.rotate_ofAxes`).
-/

set_option autoImplicit false

namespace Lindenmayer

/-! ### Exact scalars -/

/-- A real number as a scalar. -/
@[ext]
structure Exact where
  real : ℝ

namespace Exact

/-- No operation rounds and every number is finite. The reciprocal of zero is zero, which is refused
by whoever asks for a positive number. -/
noncomputable instance : Scalar Exact where
  add first second := ⟨first.real + second.real⟩
  sub first second := ⟨first.real - second.real⟩
  mul first second := ⟨first.real * second.real⟩
  div first second := ⟨first.real / second.real⟩
  lt first second := first.real < second.real
  le first second := first.real ≤ second.real
  zero := ⟨0⟩
  one := ⟨1⟩
  two := ⟨1 + 1⟩
  half := ⟨1 / (1 + 1)⟩
  sqrt number := ⟨√number.real⟩
  isFinite _ := true
  decidableLT first second := inferInstanceAs (Decidable (first.real < second.real))
  decidableLE first second := inferInstanceAs (Decidable (first.real ≤ second.real))

variable (first second number : Exact)

@[simp] theorem real_add : (first + second).real = first.real + second.real := rfl

@[simp] theorem real_sub : (first - second).real = first.real - second.real := rfl

@[simp] theorem real_mul : (first * second).real = first.real * second.real := rfl

@[simp] theorem real_div : (first / second).real = first.real / second.real := rfl

@[simp] theorem real_zero : (Scalar.zero : Exact).real = 0 := rfl

@[simp] theorem real_one : (Scalar.one : Exact).real = 1 := rfl

@[simp] theorem real_two : (Scalar.two : Exact).real = 2 := one_add_one_eq_two

@[simp] theorem real_half : (Scalar.half : Exact).real = 1 / 2 :=
  congrArg (1 / ·) one_add_one_eq_two

@[simp] theorem real_sqrt : (Scalar.sqrt number).real = √number.real := rfl

theorem lt_iff : first < second ↔ first.real < second.real := Iff.rfl

theorem le_iff : first ≤ second ↔ first.real ≤ second.real := Iff.rfl

end Exact

namespace Vector3

theorem ext_real {first second : Vector3 Exact} (hx : first.x.real = second.x.real)
    (hy : first.y.real = second.y.real) (hz : first.z.real = second.z.real) : first = second := by
  cases first
  cases second
  rw [Vector3.mk.injEq, Exact.ext_iff, Exact.ext_iff, Exact.ext_iff]
  exact ⟨hx, hy, hz⟩

variable (first second vector : Vector3 Exact) (factor : Exact)

theorem real_dot : (first.dot second).real = first.x.real * second.x.real +
    first.y.real * second.y.real + first.z.real * second.z.real := rfl

@[simp] theorem x_add : (first + second).x = first.x + second.x := rfl

@[simp] theorem y_add : (first + second).y = first.y + second.y := rfl

@[simp] theorem z_add : (first + second).z = first.z + second.z := rfl

end Vector3

/-! ### Products of components -/

/-- The four components of a rotor. -/
inductive Component
  | x
  | y
  | z
  | w

namespace Rotor

/-- A component as a real number. -/
def component (rotor : Rotor Exact) : Component → ℝ
  | .x => rotor.x.real
  | .y => rotor.y.real
  | .z => rotor.z.real
  | .w => rotor.w.real

/-- The squares of the components add up to one. -/
def IsUnit (rotor : Rotor Exact) : Prop :=
  rotor.axis.dot rotor.axis + rotor.w * rotor.w = Scalar.one

section Products

variable (first second third : Vector3 Exact)

/-- Four times the product of two components of the rotor that carries the coordinate axes onto
`first`, `second` and `third`. -/
def product : Component → Component → ℝ
  | .x, .x => 1 - third.z.real - (second.y.real - first.x.real)
  | .y, .y => 1 - third.z.real + (second.y.real - first.x.real)
  | .z, .z => 1 + third.z.real - (second.y.real + first.x.real)
  | .w, .w => 1 + third.z.real + (second.y.real + first.x.real)
  | .x, .y | .y, .x => first.y.real + second.x.real
  | .x, .z | .z, .x => first.z.real + third.x.real
  | .y, .z | .z, .y => second.z.real + third.y.real
  | .x, .w | .w, .x => second.z.real - third.y.real
  | .y, .w | .w, .y => third.x.real - first.z.real
  | .z, .w | .w, .z => first.y.real - second.x.real

/-- The component whose square the conversion takes the root of. -/
noncomputable def pivot : Component :=
  if third.z ≤ Scalar.zero then if second.y - first.x ≤ Scalar.zero then .x else .y
  else if second.y + first.x ≤ Scalar.zero then .z else .w

/-- The rotor whose components are the products with one of them, divided by twice the root of the
product of that one with itself. -/
noncomputable def ofPivot (pivot : Component) : Rotor Exact :=
  let factor : Exact := Scalar.half / Scalar.sqrt ⟨product first second third pivot pivot⟩
  ⟨⟨product first second third pivot .x⟩ * factor, ⟨product first second third pivot .y⟩ * factor,
    ⟨product first second third pivot .z⟩ * factor, ⟨product first second third pivot .w⟩ * factor⟩

/-- Each branch of the conversion takes the products with its pivot. -/
theorem ofAxes_eq :
    ofAxes first second third = ofPivot first second third (pivot first second third) := by
  rw [ofAxes, pivot]
  dsimp only
  split_ifs
  · rfl
  · rfl
  · rfl
  · rfl

/-- The root is taken of a number that is at least one, for any three vectors: every branch adds to
one what is not negative there. -/
theorem one_le_product_pivot :
    1 ≤ product first second third (pivot first second third) (pivot first second third) := by
  rw [pivot]
  split_ifs with hdown hfirst hfirst
  all_goals
    simp only [Exact.le_iff, Exact.real_sub, Exact.real_add, Exact.real_zero] at hdown hfirst
    simp only [product]
    linarith

theorem component_ofPivot (pivot component : Component) :
    (ofPivot first second third pivot).component component =
      product first second third pivot component *
        (1 / 2 / √(product first second third pivot pivot)) := by
  rw [← Exact.real_half]
  cases component with
  | _ => rfl

end Products

end Rotor

/-! ### Frames -/

/-- A right-handed frame: two unit vectors at right angles, and the one at right angles to both. -/
structure IsFrame (first second third : Vector3 Exact) : Prop where
  first_unit : first.dot first = Scalar.one
  second_unit : second.dot second = Scalar.one
  perpendicular : first.dot second = Scalar.zero
  third_eq : third = first.cross second

namespace IsFrame

variable {first second third : Vector3 Exact} (h : IsFrame first second third)

include h

/-- The vectors of a frame can be taken in turn: the square of an area is the product of the squares
less the square of the product. -/
theorem turn : IsFrame second third first := by
  obtain ⟨hfirst, hsecond, hperpendicular, rfl⟩ := h
  have hfirst' := congrArg Exact.real hfirst
  have hsecond' := congrArg Exact.real hsecond
  have hperpendicular' := congrArg Exact.real hperpendicular
  simp only [Vector3.real_dot, Exact.real_one, Exact.real_zero] at hfirst' hsecond' hperpendicular'
  refine ⟨hsecond, Exact.ext ?_, Exact.ext ?_, Vector3.ext_real ?_ ?_ ?_⟩
  all_goals simp only [Vector3.real_dot, Vector3.cross, Exact.real_sub, Exact.real_mul,
    Exact.real_one, Exact.real_zero]
  · linear_combination (second.x.real * second.x.real + second.y.real * second.y.real +
      second.z.real * second.z.real) * hfirst' + hsecond' - (first.x.real * second.x.real +
      first.y.real * second.y.real + first.z.real * second.z.real) * hperpendicular'
  · ring
  · linear_combination -first.x.real * hsecond' + second.x.real * hperpendicular'
  · linear_combination -first.y.real * hsecond' + second.y.real * hperpendicular'
  · linear_combination -first.z.real * hsecond' + second.z.real * hperpendicular'

/-- The vectors of a frame are unit vectors at right angles to each other. -/
theorem columns :
    ((first.dot first).real = 1 ∧ (second.dot second).real = 1 ∧ (third.dot third).real = 1) ∧
      (first.dot second).real = 0 ∧ (second.dot third).real = 0 ∧ (third.dot first).real = 0 :=
  ⟨⟨congrArg Exact.real h.first_unit, congrArg Exact.real h.turn.first_unit,
      congrArg Exact.real h.turn.turn.first_unit⟩,
    congrArg Exact.real h.perpendicular, congrArg Exact.real h.turn.perpendicular,
    congrArg Exact.real h.turn.turn.perpendicular⟩

/-- Every coordinate of a frame is its own minor in the table of the coordinates. -/
theorem eq_minor :
    (first.x.real = second.y.real * third.z.real - third.y.real * second.z.real ∧
      first.y.real = second.z.real * third.x.real - third.z.real * second.x.real ∧
      first.z.real = second.x.real * third.y.real - third.x.real * second.y.real) ∧
    (second.x.real = third.y.real * first.z.real - first.y.real * third.z.real ∧
      second.y.real = third.z.real * first.x.real - first.z.real * third.x.real ∧
      second.z.real = third.x.real * first.y.real - first.x.real * third.y.real) ∧
    third.x.real = first.y.real * second.z.real - second.y.real * first.z.real ∧
      third.y.real = first.z.real * second.x.real - second.z.real * first.x.real ∧
      third.z.real = first.x.real * second.y.real - second.x.real * first.y.real := by
  have hcoordinates {vector left right : Vector3 Exact} (heq : vector = left.cross right) :
      vector.x.real = left.y.real * right.z.real - right.y.real * left.z.real ∧
        vector.y.real = left.z.real * right.x.real - right.z.real * left.x.real ∧
        vector.z.real = left.x.real * right.y.real - right.x.real * left.y.real := by
    rw [heq]
    exact ⟨rfl, rfl, rfl⟩
  exact ⟨hcoordinates h.turn.third_eq, hcoordinates h.turn.turn.third_eq, hcoordinates h.third_eq⟩

/-- The rows of the table of the coordinates are a frame too: a row times its own minors is the
determinant, which is one, and a row times the minors of another row is zero. -/
theorem transpose : IsFrame ⟨first.x, second.x, third.x⟩ ⟨first.y, second.y, third.y⟩
    ⟨first.z, second.z, third.z⟩ := by
  obtain ⟨⟨hfirst_x, hfirst_y, hfirst_z⟩, ⟨hsecond_x, hsecond_y, hsecond_z⟩, hthird_x, hthird_y,
    hthird_z⟩ := h.eq_minor
  have hdeterminant : first.x.real * (second.y.real * third.z.real - third.y.real * second.z.real) +
      first.y.real * (second.z.real * third.x.real - third.z.real * second.x.real) +
      first.z.real * (second.x.real * third.y.real - third.x.real * second.y.real) = 1 := by
    rw [← hfirst_x, ← hfirst_y, ← hfirst_z]
    exact h.columns.1.1
  refine ⟨Exact.ext ?_, Exact.ext ?_, Exact.ext ?_, Vector3.ext_real ?_ ?_ ?_⟩
  all_goals simp only [Vector3.real_dot, Vector3.cross, Exact.real_sub, Exact.real_mul,
    Exact.real_one, Exact.real_zero]
  · linear_combination hdeterminant + first.x.real * hfirst_x + second.x.real * hsecond_x +
      third.x.real * hthird_x
  · linear_combination hdeterminant + first.y.real * hfirst_y + second.y.real * hsecond_y +
      third.y.real * hthird_y
  · linear_combination first.y.real * hfirst_x + second.y.real * hsecond_x + third.y.real * hthird_x
  · linear_combination hfirst_z
  · linear_combination hsecond_z
  · linear_combination hthird_z

/-- The table of products has rank one. In each of its entries this is a sum of relations between
the coordinates of a frame. -/
theorem product_mul_product (pivot left right : Component) :
    Rotor.product first second third pivot left * Rotor.product first second third pivot right =
      Rotor.product first second third pivot pivot *
        Rotor.product first second third left right := by
  obtain ⟨⟨hfirst, hsecond, hthird⟩, hfirst_second, hsecond_third, hthird_first⟩ := h.columns
  obtain ⟨⟨hx, hy, hz⟩, hxy, hyz, hzx⟩ := h.transpose.columns
  obtain ⟨⟨hfirst_x, hfirst_y, hfirst_z⟩, ⟨hsecond_x, hsecond_y, hsecond_z⟩, hthird_x, hthird_y,
    hthird_z⟩ := h.eq_minor
  simp only [Vector3.real_dot] at hfirst hsecond hthird hfirst_second hsecond_third hthird_first
  simp only [Vector3.real_dot] at hx hy hz hxy hyz hzx
  cases pivot <;> cases left <;> cases right <;> simp only [Rotor.product] <;> linarith

/-- The products of the components of the rotor of a frame. -/
theorem four_mul_component (left right : Component) :
    4 * ((Rotor.ofAxes first second third).component left *
        (Rotor.ofAxes first second third).component right) =
      Rotor.product first second third left right := by
  rw [Rotor.ofAxes_eq, Rotor.component_ofPivot, Rotor.component_ofPivot]
  have hpos := one_pos.trans_le (Rotor.one_le_product_pivot first second third)
  have hproduct := h.product_mul_product (Rotor.pivot first second third) left right
  generalize Rotor.pivot first second third = pivot at hpos hproduct ⊢
  generalize Rotor.product first second third pivot pivot = square at hpos hproduct ⊢
  have hfactor : 1 / 2 / √square * (1 / 2 / √square) = 1 / (4 * square) := by
    rw [div_mul_div_comm, Real.mul_self_sqrt hpos.le]
    ring
  calc 4 * (Rotor.product first second third pivot left * (1 / 2 / √square) *
        (Rotor.product first second third pivot right * (1 / 2 / √square)))
      = 4 * (Rotor.product first second third pivot left *
          Rotor.product first second third pivot right) *
          (1 / 2 / √square * (1 / 2 / √square)) := by ring
    _ = 4 * (square * Rotor.product first second third left right) * (1 / (4 * square)) := by
        rw [hproduct, hfactor]
    _ = Rotor.product first second third left right := by
        field_simp

/-- The rotor of a frame is a unit rotor: four times the squares of its components are the diagonal
of the table, which adds up to four. -/
theorem isUnit_ofAxes : (Rotor.ofAxes first second third).IsUnit := by
  have hxx := h.four_mul_component .x .x
  have hyy := h.four_mul_component .y .y
  have hzz := h.four_mul_component .z .z
  have hww := h.four_mul_component .w .w
  generalize Rotor.ofAxes first second third = rotor at hxx hyy hzz hww ⊢
  simp only [Rotor.component, Rotor.product] at hxx hyy hzz hww
  refine Exact.ext ?_
  simp only [Exact.real_add, Vector3.real_dot, Rotor.axis, Exact.real_mul, Exact.real_one]
  linarith

/-- The rotor of a frame carries the coordinate axes onto the frame. -/
theorem rotate_ofAxes :
    (Rotor.ofAxes first second third).rotate Vector3.unitX = first ∧
      (Rotor.ofAxes first second third).rotate Vector3.unitY = second ∧
      (Rotor.ofAxes first second third).rotate Vector3.unitZ = third := by
  have hproduct := h.four_mul_component
  generalize Rotor.ofAxes first second third = rotor at hproduct ⊢
  have hxx := hproduct .x .x
  have hyy := hproduct .y .y
  have hzz := hproduct .z .z
  have hww := hproduct .w .w
  have hxy := hproduct .x .y
  have hxz := hproduct .x .z
  have hyz := hproduct .y .z
  have hxw := hproduct .x .w
  have hyw := hproduct .y .w
  have hzw := hproduct .z .w
  simp only [Rotor.component, Rotor.product] at hxx hyy hzz hww hxy hxz hyz hxw hyw hzw
  refine ⟨Vector3.ext_real ?_ ?_ ?_, Vector3.ext_real ?_ ?_ ?_, Vector3.ext_real ?_ ?_ ?_⟩
  all_goals
    simp only [Rotor.rotate, Vector3.x_add, Vector3.y_add, Vector3.z_add, Vector3.scale,
      Vector3.cross, Rotor.axis, Vector3.unitX, Vector3.unitY, Vector3.unitZ, Exact.real_add,
      Exact.real_sub, Exact.real_mul, Vector3.real_dot, Exact.real_zero, Exact.real_one,
      Exact.real_two]
    linarith

end IsFrame

end Lindenmayer
