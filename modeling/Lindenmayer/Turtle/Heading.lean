import Lindenmayer.Single.Circle
import Lindenmayer.Single.Remainder
import Lindenmayer.Space.Rotor

/-!
# Headings

A heading is an angle in radians from the first axis, counted counter-clockwise as seen from above.
`wrapHeading` brings an angle into the half-open turn that excludes minus `pi` and includes `pi`.
The residue by a whole turn lies between zero and a whole turn, both possible, so taking away one
turn from an angle beyond `pi` is enough.

The direction of a heading is computed with a sine and a cosine. Numerical libraries give different
last digits to them, so they are parameters: a `Trigonometry`. Unless another one is given they are
those of `Single`, which are rounded correctly.
-/

set_option autoImplicit false

namespace Lindenmayer

open Single

/-- The heading that differs from an angle by whole turns. An angle that is infinite or not a number
has none, and gives what is not a number. -/
def wrapHeading (angle : Float32) : Float32 :=
  let heading := residue angle tau
  if pi < heading then heading - tau else heading

/-- How sines and cosines of angles in radians are computed. -/
class Trigonometry where
  sin : Float32 → Float32
  cos : Float32 → Float32

/-- The sines and cosines that are rounded once. -/
instance : Trigonometry := ⟨Single.sin, Single.cos⟩

variable [Trigonometry]

/-- The rotation by an angle about the upward axis. -/
def Rotor.aboutUp (angle : Float32) : Rotor Float32 :=
  let half := angle * 0.5
  ⟨0, 0, Trigonometry.sin half, Trigonometry.cos half⟩

/-- The direction of a heading: the first axis, turned about the upward axis. -/
def direction (heading : Float32) : Point := (Rotor.aboutUp heading).rotate Vector3.unitX

end Lindenmayer
