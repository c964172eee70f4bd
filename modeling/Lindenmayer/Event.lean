import Lindenmayer.Curve.Kind

/-!
# Events

Growing a word, reading it, recording a curve and walking along a curve leave events behind, in the
order in which they happen. A computation that can leave events returns them beside its result, as a
`Logged` value; nothing is printed here.
-/

set_option autoImplicit false

namespace Lindenmayer

universe u

/-- How much attention an event asks for. -/
inductive Level
  | trace
  | debug
  | warn
deriving DecidableEq

/-- Something that happened, with its figures. -/
inductive Event
  /-- Generation number `generation` is finished and has `length` symbols. -/
  | rewrote (generation length : Nat)
  /-- All generations are finished: from `startLength` symbols to `length`. -/
  | derived (generations startLength length : Nat)
  /-- A reading is finished in which `count` symbols had no command and were passed over. -/
  | skipped (count : Nat) (turtle : String)
  /-- A reading of `symbols` symbols is finished. -/
  | executed (symbols depth curves : Nat)
  /-- A curve of `points` points was handed to the canvas. -/
  | created (turtle : String) (points : Nat) (kind : CurveKind)
  /-- A walk of `steps` steps from parameter `first` to parameter `last` is finished. -/
  | walked (steps : Nat) (first last : Float32)
deriving DecidableEq

namespace Event

/-- Finished generations are details, skipped symbols deserve a warning. -/
def level : Event → Level
  | rewrote .. => .trace
  | skipped .. => .warn
  | derived .. | executed .. | created .. | walked .. => .debug

/-- The headline of an event. -/
def message : Event → String
  | rewrote .. => "rewrote symbol string"
  | derived .. => "expanded l-system"
  | skipped .. => "ignored unbound symbols"
  | executed .. => "executed symbol string"
  | created .. => "created curve"
  | walked .. => "walked curve"

end Event

/-- A result together with the events that led to it, first to last. -/
structure Logged (α : Type u) where
  result : α
  events : List Event := []

end Lindenmayer
