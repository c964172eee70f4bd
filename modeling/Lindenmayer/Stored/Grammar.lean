import Lindenmayer.Grammar.Classic
import Lindenmayer.Stored.Basic

/-!
# Stored grammars and ceilings

A word is stored as its text. Rules are stored as an object whose keys are symbols; when a key
stands there twice, the later replacement counts.
-/

set_option autoImplicit false

namespace Lindenmayer.Stored

instance : Stored Word where
  encode word := encode (String.ofList word)
  decode json := (decode json : Option String).map String.toList

/-- The symbol that a key consists of. -/
def symbol? (key : Literal) : Option Char :=
  match key.map String.toList with
  | some [symbol] => some symbol
  | _ => none

instance : Stored Rules where
  encode rules :=
    .object (rules.entries.map fun entry ↦ (some (String.ofList [entry.1]), encode entry.2))
  decode
    | .object entries => do
      let pairs ← entries.mapM fun entry ↦ do
        pure (← symbol? entry.1, ← (decode entry.2 : Option Word))
      pure (.ofList pairs)
    | _ => none

instance : Stored Grammar where
  encode grammar := record [("axiom", encode grammar.start), ("rules", encode grammar.rules)]
  decode json := do
    let fields ← fields? ["axiom", "rules"] json
    let start ← fields.required "axiom"
    let rules ← fields.required "rules"
    pure { start, rules }

instance : Stored Ceilings where
  encode ceilings :=
    record [("max_iterations", encode ceilings.generations), ("max_length", encode ceilings.length)]
  decode json := do
    let fields ← fields? ["max_iterations", "max_length"] json
    let generations ← fields.optional "max_iterations"
    let length ← fields.optional "max_length"
    pure { generations, length }

instance : Stored Classic where
  encode classic := encode classic.name
  decode := decodeName Classic.all Classic.name

end Lindenmayer.Stored
