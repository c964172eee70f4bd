import Lindenmayer.Event
import Lindenmayer.Path.Curve
import Lindenmayer.Space.Rotor

/-!
# Walks along a curve

A walk divides the domain of a curve into equal steps and stops at the end of each. A stop tells
where it is and how a traveller is turned there: towards where the last step went. A step that goes
nowhere leaves the traveller as he was, and before the first move he is not turned at all.

`Curve.walkWith` shows the stops to a visitor as they come; `Curve.walk` is the walk with a visitor
who writes them down.
-/

set_option autoImplicit false

namespace Lindenmayer

/-- Why a curve cannot be walked along. -/
inductive WalkError
  /-- There are no steps to walk. -/
  | noSteps
  /-- The domain has an infinite end. -/
  | unbounded
deriving DecidableEq

/-- The wording of a refused walk. -/
def WalkError.message : WalkError → String
  | noSteps => "path walk needs at least one step"
  | unbounded => "cannot walk a curve with an unbounded domain"

/-- One stop of a walk. -/
structure Stop where
  /-- The number of the step that ends here, counted from one. -/
  step : Nat
  /-- The parameter of the stop. -/
  parameter : Float32
  location : Point
  /-- The rotation that points the first axis along the way and keeps the second level. -/
  rotation : Rotor Float32
deriving BEq, DecidableEq, Inhabited

/-- The parameter at the end of step number `step` out of `steps` equal steps. -/
def Interval.parameter (interval : Interval) (steps step : Nat) : Float32 :=
  interval.first + (interval.last - interval.first) * (Float32.ofNat step / Float32.ofNat steps)

namespace Curve

/-- The stop that follows a stop at `previous`, where the traveller was turned by `rotation`. -/
def stopAfter (curve : Curve) (steps step : Nat) (previous : Point) (rotation : Rotor Float32) :
    Stop :=
  let parameter := curve.domain.parameter steps step
  let location := curve.sampleClamped parameter
  { step, parameter, location
    rotation := (Rotor.facing? (location - previous)).getD rotation }

/-- Shows the stops of the last `remaining` steps out of `steps` to a visitor, one after the other.
-/
def visitFrom {σ : Type} (curve : Curve) (steps : Nat) (visit : σ → Stop → σ) :
    (remaining : Nat) → Point → Rotor Float32 → σ → σ
  | 0, _, _, visitor => visitor
  | remaining + 1, previous, rotation, visitor =>
    let stop := curve.stopAfter steps (steps - remaining) previous rotation
    curve.visitFrom steps visit remaining stop.location stop.rotation (visit visitor stop)

/-- Walks along a curve in equal steps and shows every stop to a visitor, who is changed by what he
sees. A walk that is refused shows him nothing. -/
def walkWith {σ : Type} (curve : Curve) (steps : Nat) (visit : σ → Stop → σ) (visitor : σ) :
    σ × Logged (Except WalkError Unit) :=
  if steps = 0 then (visitor, ⟨.error .noSteps, []⟩)
  else if curve.domain.isBounded then
    let start := curve.sampleClamped curve.domain.first
    (curve.visitFrom steps visit steps start .identity visitor,
      ⟨.ok (), [.walked steps curve.domain.first curve.domain.last]⟩)
  else (visitor, ⟨.error .unbounded, []⟩)

/-- The stops of a walk in equal steps, first to last. -/
def walk (curve : Curve) (steps : Nat) : Logged (Except WalkError (List Stop)) :=
  let (stops, walked) := curve.walkWith steps (fun stops stop ↦ stop :: stops) []
  ⟨walked.result.map fun _ ↦ stops.reverse, walked.events⟩

end Curve

end Lindenmayer
