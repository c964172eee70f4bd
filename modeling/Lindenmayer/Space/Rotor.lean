import Lindenmayer.Space.Vector

/-!
# Rotations of space

A rotation is given by a unit quaternion, here a `Rotor` with vector part `x, y, z` and scalar part
`w`. `Rotor.rotate` turns a vector. `Rotor.ofAxes` finds the rotor that carries the coordinate axes
onto three given directions; it takes the square root of the largest of four sums, so that the sum
is never near zero. `Rotor.facing?` is the rotation of a traveller: the first axis goes along the
direction of travel, the second stays level, and the third points up as far as it can.
-/

set_option autoImplicit false

namespace Lindenmayer

universe u

/-- A quaternion that stands for a rotation. -/
structure Rotor (α : Type u) where
  x : α
  y : α
  z : α
  w : α
deriving BEq, DecidableEq, Inhabited

namespace Rotor

variable {α : Type u} [Scalar α]

/-- The rotation that leaves every vector where it is. -/
def identity : Rotor α := ⟨Scalar.zero, Scalar.zero, Scalar.zero, Scalar.one⟩

/-- The vector part of a rotor. -/
def axis (rotor : Rotor α) : Vector3 α := ⟨rotor.x, rotor.y, rotor.z⟩

/-- The vector turned by the rotor: with `b` its vector part and `w` its scalar part, this is
`(v (w w - b·b) + b (2 v·b)) + (b × v) (2 w)`. -/
def rotate (rotor : Rotor α) (vector : Vector3 α) : Vector3 α :=
  let b := rotor.axis
  (vector.scale (rotor.w * rotor.w - b.dot b) + b.scale (vector.dot b * Scalar.two)) +
    (b.cross vector).scale (rotor.w * Scalar.two)

/-- The rotor that carries the three axes onto `first`, `second` and `third`, which must be
orthonormal and right-handed. Four times the square of each component of the rotor is one plus a sum
of diagonal entries with some signs; the signs of the diagonal tell which component is large. -/
def ofAxes (first second third : Vector3 α) : Rotor α :=
  if third.z ≤ Scalar.zero then
    let difference := second.y - first.x
    let complement := Scalar.one - third.z
    if difference ≤ Scalar.zero then
      let square := complement - difference
      let factor := Scalar.half / Scalar.sqrt square
      ⟨square * factor, (first.y + second.x) * factor, (first.z + third.x) * factor,
        (second.z - third.y) * factor⟩
    else
      let square := complement + difference
      let factor := Scalar.half / Scalar.sqrt square
      ⟨(first.y + second.x) * factor, square * factor, (second.z + third.y) * factor,
        (third.x - first.z) * factor⟩
  else
    let sum := second.y + first.x
    let complement := Scalar.one + third.z
    if sum ≤ Scalar.zero then
      let square := complement - sum
      let factor := Scalar.half / Scalar.sqrt square
      ⟨(first.z + third.x) * factor, (second.z + third.y) * factor, square * factor,
        (first.y - second.x) * factor⟩
    else
      let square := complement + sum
      let factor := Scalar.half / Scalar.sqrt square
      ⟨(second.z - third.y) * factor, (third.x - first.z) * factor, (first.y - second.x) * factor,
        square * factor⟩

/-- The rotation that points the first axis along `direction` and keeps the second level. A vertical
direction has no level side of its own and takes the second coordinate axis. There is no such
rotation when the direction cannot be normalized. -/
def facing? (direction : Vector3 α) : Option (Rotor α) :=
  direction.normalize?.map fun forward ↦
    let side := (Vector3.unitZ.cross forward).normalize?.getD Vector3.unitY
    ofAxes forward side (forward.cross side)

end Rotor

end Lindenmayer
