/-!
# Scalars

Vectors and rotations are written once for every number type that offers the operations of `Scalar`:
arithmetic, a square root, two comparisons and a test for finiteness. The drawing itself runs on
single-precision numbers, where every operation rounds; the same formulas can be read over an exact
field with square roots, where a formula is judged free of rounding.

Nothing is assumed of the operations: for single precision, addition is not associative and a
comparison with a number that is not a number is false.
-/

set_option autoImplicit false

namespace Lindenmayer

universe u

/-- A number type with the operations that vectors and rotations need. -/
class Scalar (α : Type u) extends Add α, Sub α, Mul α, Div α, LT α, LE α where
  /-- The neutral element of addition. -/
  zero : α
  /-- The neutral element of multiplication. -/
  one : α
  /-- One and one. -/
  two : α
  /-- One divided by two. -/
  half : α
  /-- The square root. -/
  sqrt : α → α
  /-- Whether a number is neither infinite nor undefined. -/
  isFinite : α → Bool
  /-- Less-than is decided. -/
  decidableLT : DecidableLT α
  /-- Less-or-equal is decided. -/
  decidableLE : DecidableLE α

attribute [reducible, instance] Scalar.decidableLT Scalar.decidableLE

/-- Single precision: each operation is the exact result rounded to the nearest single. -/
instance : Scalar Float32 where
  zero := 0
  one := 1
  two := 2
  half := 0.5
  sqrt := Float32.sqrt
  isFinite := Float32.isFinite
  decidableLT := inferInstance
  decidableLE := inferInstance

end Lindenmayer
