import Lindenmayer.Event
import Lindenmayer.Grammar.Rewriting

/-!
# Bounded derivation

A grammar is a start word with its rules. Its derivation runs a number of generations and returns
the last word. Words grow exponentially, so a caller can set two ceilings: one on the number of
generations, which is checked before anything is rewritten, and one on the length of every
generation after the start word, which is watched while the generation is being written.

`Rules.derive` leaves one event for each finished generation and one for the finished derivation. A
derivation that fails keeps the events of the generations it finished.
-/

set_option autoImplicit false

namespace Lindenmayer

/-- Ceilings on a derivation; an absent one never stops it. -/
structure Ceilings where
  /-- The largest number of generations that may be asked for. -/
  generations : Option UInt32 := none
  /-- The largest number of symbols that a generation may have. -/
  length : Option UInt64 := none
deriving BEq, DecidableEq

instance : Inhabited Ceilings := ⟨{}⟩

/-- Why a derivation has no word to return. -/
inductive DerivationError
  /-- The number of generations is negative. -/
  | negativeCount (count : Int)
  /-- More generations are asked for than the ceiling allows. -/
  | tooManyGenerations (requested ceiling : Nat)
  /-- A generation has at least `length` symbols, which is more than the ceiling. -/
  | tooLong (length ceiling generation : Nat)
deriving DecidableEq

/-- The wording of a failed derivation. -/
def DerivationError.message : DerivationError → String
  | negativeCount count => s!"iteration count must be non-negative, got {count}"
  | tooManyGenerations requested ceiling =>
    s!"requested {requested} iterations, ceiling is {ceiling}"
  | tooLong length ceiling generation =>
    s!"expansion reached {length} symbols at iteration {generation}, ceiling is {ceiling}"

/-- The largest number of generations that a derivation can be asked for. -/
def largestCount : Nat := UInt32.size - 1

/-- A signed number of generations as a natural number that a derivation accepts. -/
def generationCount (count : Int) : Except DerivationError Nat :=
  if count < 0 then .error (.negativeCount count)
  else if largestCount < count.toNat then .error (.tooManyGenerations count.toNat largestCount)
  else .ok count.toNat

/-- Runs `remaining` more generations on `word`, the generation number `done`, of `length` symbols.
The events so far are kept last first. -/
def MeasuredRules.deriveFrom (rules : MeasuredRules) (ceiling : Option Nat) (word : Word)
    (length : Nat) (done : Nat) (events : List Event) :
    (remaining : Nat) → List Event × Except DerivationError (Word × Nat)
  | 0 => (events, .ok (word, length))
  | remaining + 1 =>
    match rules.rewriteWithin ceiling word with
    | .error length => (events, .error (.tooLong length (ceiling.getD 0) (done + 1)))
    | .ok (next, length) =>
      rules.deriveFrom ceiling next length (done + 1) (.rewrote (done + 1) length :: events)
        remaining

namespace Rules

/-- The word after `count` generations from `start`, unless a ceiling is crossed. -/
def derive (rules : Rules) (ceilings : Ceilings) (start : Word) (count : Nat) :
    Logged (Except DerivationError Word) :=
  match ceilings.generations with
  | some ceiling =>
    if ceiling.toNat < count then ⟨.error (.tooManyGenerations count ceiling.toNat), []⟩
    else run
  | none => run
where
  /-- The derivation itself, once the number of generations is accepted. -/
  run : Logged (Except DerivationError Word) :=
    match
      rules.measured.deriveFrom (ceilings.length.map UInt64.toNat) start start.length 0 [] count with
    | (events, .error error) => ⟨.error error, events.reverse⟩
    | (events, .ok (word, length)) =>
      ⟨.ok word, (Event.derived count start.length length :: events).reverse⟩

/-- The word after a signed number of generations, without ceilings. -/
def deriveSigned (rules : Rules) (start : Word) (count : Int) :
    Logged (Except DerivationError Word) :=
  match generationCount count with
  | .error error => ⟨.error error, []⟩
  | .ok count => rules.derive {} start count

end Rules

/-- A start word with the rules that make it grow. -/
structure Grammar where
  /-- The word of generation zero. -/
  start : Word := []
  /-- The replacements of one generation. -/
  rules : Rules := .empty
deriving BEq

instance : Inhabited Grammar := ⟨{}⟩

namespace Grammar

/-- The grammar in which `symbol` is replaced by `replacement`. -/
def withRule (grammar : Grammar) (symbol : Char) (replacement : Word) : Grammar :=
  { grammar with rules := grammar.rules.insert symbol replacement }

/-- The grammar in which `symbol` has no rule. -/
def withoutRule (grammar : Grammar) (symbol : Char) : Grammar :=
  { grammar with rules := grammar.rules.erase symbol }

/-- The word of generation number `count`, unless a ceiling is crossed. -/
def derive (grammar : Grammar) (ceilings : Ceilings) (count : Nat) :
    Logged (Except DerivationError Word) :=
  grammar.rules.derive ceilings grammar.start count

/-- The grammar that starts where a derivation ends. -/
def advance (grammar : Grammar) (ceilings : Ceilings) (count : Nat) :
    Logged (Except DerivationError Grammar) :=
  let derivation := grammar.derive ceilings count
  ⟨derivation.result.map fun word ↦ { grammar with start := word }, derivation.events⟩

end Grammar

end Lindenmayer
