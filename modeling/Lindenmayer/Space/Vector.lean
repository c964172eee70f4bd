import Lindenmayer.Space.Scalar

/-!
# Vectors of three coordinates

Sums, products and the norm are spelled out coordinate by coordinate, because with rounding the
grouping decides the last bit: a dot product is `(x x' + y y') + z z'`, and a vector between two
others is `a (1 - s) + b s`.
-/

set_option autoImplicit false

namespace Lindenmayer

universe u

/-- A vector of three coordinates. -/
structure Vector3 (α : Type u) where
  x : α
  y : α
  z : α
deriving BEq, DecidableEq, Inhabited

/-- A point of space in single precision. -/
abbrev Point := Vector3 Float32

namespace Vector3

variable {α : Type u} [Scalar α]

/-- The origin of the coordinates. -/
def zero : Vector3 α := ⟨Scalar.zero, Scalar.zero, Scalar.zero⟩

/-- The unit vector along the first axis. -/
def unitX : Vector3 α := ⟨Scalar.one, Scalar.zero, Scalar.zero⟩

/-- The unit vector along the second axis. -/
def unitY : Vector3 α := ⟨Scalar.zero, Scalar.one, Scalar.zero⟩

/-- The unit vector along the third axis, which points up. -/
def unitZ : Vector3 α := ⟨Scalar.zero, Scalar.zero, Scalar.one⟩

instance : Add (Vector3 α) where
  add first second := ⟨first.x + second.x, first.y + second.y, first.z + second.z⟩

instance : Sub (Vector3 α) where
  sub first second := ⟨first.x - second.x, first.y - second.y, first.z - second.z⟩

/-- The vector with every coordinate multiplied by `factor`. -/
def scale (vector : Vector3 α) (factor : α) : Vector3 α :=
  ⟨vector.x * factor, vector.y * factor, vector.z * factor⟩

/-- The sum of the products of like coordinates, from the first to the last. -/
def dot (first second : Vector3 α) : α :=
  (first.x * second.x + first.y * second.y) + first.z * second.z

/-- The vector at right angles to both, by the right-hand rule. -/
def cross (first second : Vector3 α) : Vector3 α where
  x := first.y * second.z - second.y * first.z
  y := first.z * second.x - second.z * first.x
  z := first.x * second.y - second.x * first.y

/-- The square root of the vector's product with itself. -/
def length (vector : Vector3 α) : α := Scalar.sqrt (vector.dot vector)

/-- The length of the difference. -/
def distance (first second : Vector3 α) : α := (first - second).length

/-- The vector that divides the way from `first` to `second` in the ratio `part` to the rest. -/
def between (first second : Vector3 α) (part : α) : Vector3 α :=
  first.scale (Scalar.one - part) + second.scale part

/-- The vector divided by its length, when the reciprocal of the length is finite and positive. -/
def normalize? (vector : Vector3 α) : Option (Vector3 α) :=
  let reciprocal := Scalar.one / vector.length
  if Scalar.isFinite reciprocal && decide (Scalar.zero < reciprocal) then
    some (vector.scale reciprocal)
  else none

end Vector3

end Lindenmayer
