import Lindenmayer.Stored.Curve
import Lindenmayer.Turtle.Alphabet

/-!
# Stored turtles and alphabets

Commands with a measure are stored as an object with the command's name as its only key; the other
commands are stored as their names.
-/

set_option autoImplicit false

namespace Lindenmayer.Stored

/-- The treatments of unbound symbols by name. -/
def unboundName : Unbound → String
  | .refuse => "Strict"
  | .skip => "SkipUnknown"

instance : Stored Unbound where
  encode unbound := encode (unboundName unbound)
  decode := decodeName [.refuse, .skip] unboundName

instance : Stored AlphabetSettings where
  encode settings :=
    record [("step", encode settings.step), ("angle", encode settings.angle),
      ("policy", encode settings.unbound)]
  decode json := do
    let fields ← fields? ["step", "angle", "policy"] json
    let step ← fields.required "step"
    let angle ← fields.required "angle"
    let unbound ← fields.required "policy"
    pure { step, angle, unbound }

/-- The commands by name. -/
def commandName : Command → String
  | .forward _ => "Forward"
  | .turn _ => "Turn"
  | .penDown => "PenDown"
  | .penUp => "PenUp"
  | .push => "Push"
  | .pop => "Pop"
  | .ignore => "Ignore"

instance : Stored Command where
  encode command :=
    match command with
    | .forward measure | .turn measure => record [(commandName command, encode measure)]
    | _ => encode (commandName command)
  decode
    | .object [(some "Forward", measure)] => (decode measure).map .forward
    | .object [(some "Turn", measure)] => (decode measure).map .turn
    | json => decodeName [.penDown, .penUp, .push, .pop, .ignore] commandName json

instance : Stored Setup where
  encode setup :=
    record [("origin", encode setup.origin), ("max_stack_depth", encode setup.maxDepth),
      ("spline", encode setup.options)]
  decode json := do
    let fields ← fields? ["origin", "max_stack_depth", "spline"] json
    let origin ← fields.required "origin"
    let maxDepth ← fields.required "max_stack_depth"
    let options ← fields.required "spline"
    pure { origin, maxDepth, options }

instance : Stored Snapshot where
  encode snapshot :=
    record [("position", encode snapshot.position), ("heading", encode snapshot.heading),
      ("pen_down", encode snapshot.penDown), ("path", encode snapshot.path),
      ("spline_kind", encode snapshot.kind)]
  decode json := do
    let fields ← fields? ["position", "heading", "pen_down", "path", "spline_kind"] json
    let position ← fields.required "position"
    let heading ← fields.required "heading"
    let penDown ← fields.required "pen_down"
    let path ← fields.required "path"
    let kind ← fields.required "spline_kind"
    pure { position, heading, penDown, path, kind }

end Lindenmayer.Stored
