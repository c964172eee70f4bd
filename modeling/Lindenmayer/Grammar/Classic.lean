import Lindenmayer.Grammar.Derivation
import Lindenmayer.Turtle.Alphabet

/-!
# The classic grammars

Eight grammars that are known by name. Two of them, the dragon and the snowflake, also have an
alphabet to draw them with, and `Classic.render` draws such a grammar in one stroke of the pen.
-/

set_option autoImplicit false

namespace Lindenmayer

/-- The name of a classic grammar. -/
inductive Classic
  /-- The growth of a filament of algae. -/
  | algae
  /-- A binary tree with its branches in brackets. -/
  | pythagorasTree
  | cantorSet
  | kochCurve
  | kochSnowflake
  | sierpinskiTriangle
  /-- The arrowhead curve, which approaches the triangle. -/
  | sierpinskiCurve
  | dragonCurve
deriving DecidableEq, Inhabited

/-- Why a classic grammar is not drawn. -/
inductive RenderError
  | derivation (error : DerivationError)
  | reading (error : ReadingError)
deriving DecidableEq

/-- What has come of drawing a classic grammar: the handle of its curve, if one was drawn. -/
structure Rendering (σ η : Type) where
  plotter : Plotter σ η
  result : Except RenderError (Option η)
  events : List Event := []

namespace Classic

/-- The classic grammars in their customary order. -/
def all : List Classic :=
  [algae, pythagorasTree, cantorSet, kochCurve, kochSnowflake, sierpinskiTriangle, sierpinskiCurve,
    dragonCurve]

/-- The name of a classic grammar as it is written. -/
def name : Classic → String
  | algae => "Algae"
  | pythagorasTree => "PythagorasTree"
  | cantorSet => "CantorSet"
  | kochCurve => "KochCurve"
  | kochSnowflake => "KochSnowflake"
  | sierpinskiTriangle => "SierpinskiTriangle"
  | sierpinskiCurve => "SierpinskiCurve"
  | dragonCurve => "DragonCurve"

/-- The grammar with this start word and these rules. -/
def grammarOf (start : String) (rules : List (Char × String)) : Grammar where
  start := start.toList
  rules := .ofList (rules.map fun rule ↦ (rule.1, rule.2.toList))

/-- The start word and the rules of a classic grammar. -/
def grammar : Classic → Grammar
  | algae => grammarOf "A" [('A', "AB"), ('B', "A")]
  | pythagorasTree => grammarOf "0" [('0', "1[0]0"), ('1', "11")]
  | cantorSet => grammarOf "A" [('A', "ABA"), ('B', "BBB")]
  | kochCurve => grammarOf "F" [('F', "F+F-F-F+F")]
  | kochSnowflake => grammarOf "F++F++F" [('F', "F-F++F-F")]
  | sierpinskiTriangle => grammarOf "F-G-G" [('F', "F-G+F+G-F"), ('G', "GG")]
  | sierpinskiCurve => grammarOf "A" [('A', "+B-A-B+"), ('B', "-A+B+A-")]
  | dragonCurve => grammarOf "FX" [('X', "X+YF+"), ('Y', "-FX-Y")]

/-- The word after a number of generations. -/
def derive (classic : Classic) (count : Nat) : Logged (Except DerivationError Word) :=
  classic.grammar.derive {} count

/-! ### Drawing alphabets -/

/-- Multiplies `product` by the power of `square` with a natural exponent: the binary digits of the
exponent, from the last to the first, tell which of the repeated squares take part. -/
def powerFrom (product square : Float32) (exponent : Nat) : Float32 :=
  let product := if exponent % 2 = 1 then product * square else product
  if exponent / 2 = 0 then product else powerFrom product (square * square) (exponent / 2)
termination_by exponent

/-- The length of a side of the snowflake: each generation divides it by three, so that every
generation spans the same triangle. -/
def snowflakeStep (count : Nat) : Float32 := 1 / powerFrom 1 3 count

/-- The commands to draw generation number `count` of a classic grammar, if it has any. -/
def commands? (count : Nat) : Classic → Option (List (Char × Command))
  | dragonCurve => some [('F', .forward 2), ('+', .turn Single.halfPi), ('-', .turn (-Single.halfPi)),
      ('X', .ignore), ('Y', .ignore)]
  | kochSnowflake => some [('F', .forward (snowflakeStep count)), ('+', .turn Single.thirdPi),
      ('-', .turn (-Single.thirdPi))]
  | _ => none

/-- The alphabet to draw generation number `count` of a classic grammar, if it has one. -/
def alphabet? (classic : Classic) (count : Nat) : Option Alphabet :=
  (classic.commands? count).map fun commands ↦ { commands := .ofList commands }

variable {σ η : Type} [Trigonometry] [Canvas σ η]

/-- Draws generation number `count` of a classic grammar in one stroke. A grammar without an
alphabet draws nothing and leaves the plotter as it is. -/
def render (classic : Classic) (count : Nat) (plotter : Plotter σ η) : Rendering σ η :=
  match classic.alphabet? count with
  | none => ⟨plotter, .ok none, []⟩
  | some alphabet =>
    let derivation := classic.derive count
    match derivation.result with
    | .error error => ⟨plotter, .error (.derivation error), derivation.events⟩
    | .ok word =>
      let reading := alphabet.read word (plotter.withTurtle plotter.turtle.lowerPen)
      let events := derivation.events ++ reading.events
      match reading.failure with
      | some error => ⟨reading.plotter, .error (.reading error), events⟩
      | none =>
        let lifted := reading.plotter.liftPen
        ⟨lifted.plotter, .ok lifted.handle, events ++ lifted.events⟩

end Classic

end Lindenmayer
