import Lindenmayer.Path.Interval
import Lindenmayer.Space.Vector

/-!
# Parametric curves

A curve is a function from parameters to points with an interval for its domain. The function
answers every parameter; `Curve.sample` answers in the domain only, and `Curve.sampleClamped`
answers a parameter outside the domain with the nearest end.
-/

set_option autoImplicit false

namespace Lindenmayer

/-- A function from parameters to points, of interest on its domain. -/
structure Curve where
  domain : Interval
  /-- The point of any parameter, in the domain or not. -/
  point : Float32 → Point

namespace Curve

/-- The point of a parameter in the domain. -/
def sample (curve : Curve) (parameter : Float32) : Option Point :=
  if curve.domain.contains parameter then some (curve.point parameter) else none

/-- The point of the parameter in the domain that is nearest to the given one. -/
def sampleClamped (curve : Curve) (parameter : Float32) : Point :=
  curve.point (curve.domain.clamp parameter)

end Curve

end Lindenmayer
