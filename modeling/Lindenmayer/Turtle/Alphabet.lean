import Lindenmayer.Grammar.Rewriting
import Lindenmayer.Symbol.Quoted
import Lindenmayer.Turtle.Plotter

/-!
# Drawing alphabets and the reading of words

A drawing alphabet binds symbols to commands. Reading a word carries out the commands of its symbols
from left to right. It ends early when a command is refused, or when a symbol has no command and the
alphabet refuses such symbols; the plotter then stays as the symbols before have left it. An
alphabet can also pass over symbols without a command, and counts them.

`Alphabet.readFrom` is the reading itself, from any state of progress. `Alphabet.read` begins one
and closes it with its events: a warning if symbols were passed over, and a summary. A reading that
ends early is not closed, and keeps the events of the curves it has drawn.
-/

set_option autoImplicit false

namespace Lindenmayer

/-- What is done about a symbol without a command. -/
inductive Unbound
  /-- The reading ends with an error. -/
  | refuse
  /-- The symbol is passed over and counted. -/
  | skip
deriving DecidableEq, Inhabited

/-- The measures of an alphabet. -/
structure AlphabetSettings where
  /-- The distance of the standard moves. -/
  step : Float32 := 1
  /-- The angle of the standard turns. -/
  angle : Float32 := Single.halfPi
  unbound : Unbound := .refuse
deriving BEq, DecidableEq

instance : Inhabited AlphabetSettings := ⟨{}⟩

/-- Symbols bound to commands. -/
structure Alphabet where
  commands : SymbolTable Command := .empty
  settings : AlphabetSettings := {}
deriving BEq

instance : Inhabited Alphabet := ⟨{}⟩

/-- Why a reading ended early. -/
inductive ReadingError
  /-- The symbol at this index, counted from zero, has no command. -/
  | unbound (symbol : Char) (index : Nat)
  /-- A stack command was refused. -/
  | stack (error : StackError)
deriving DecidableEq

/-- The wording of an early end. -/
def ReadingError.message : ReadingError → String
  | unbound symbol index =>
    s!"no action bound for symbol {Quoted.symbol symbol} at index {index}"
  | stack error => error.message

/-- How far a reading has come: the plotter, the events so far with the last one first, and how many
symbols were read and how many of them passed over. -/
structure Progress (σ η : Type) where
  plotter : Plotter σ η
  events : List Event := []
  symbols : Nat := 0
  skipped : Nat := 0

/-- What has come of a reading. -/
structure Reading (σ η : Type) where
  plotter : Plotter σ η
  failure : Option ReadingError
  events : List Event

namespace Alphabet

/-- The alphabet in which `symbol` has the command `command`. -/
def bind (alphabet : Alphabet) (symbol : Char) (command : Command) : Alphabet :=
  { alphabet with commands := alphabet.commands.insert symbol command }

/-- The commands that are customary for words with branches. -/
def standardCommands (settings : AlphabetSettings) : List (Char × Command) :=
  [('F', .forward settings.step), ('G', .forward settings.step), ('+', .turn settings.angle),
    ('-', .turn (-settings.angle)), ('[', .push), (']', .pop)]

/-- The alphabet with the customary commands, and its own for all other symbols. -/
def withStandard (alphabet : Alphabet) : Alphabet :=
  (standardCommands alphabet.settings).foldl (fun alphabet entry ↦ alphabet.bind entry.1 entry.2)
    alphabet

variable {σ η : Type} [Trigonometry] [Canvas σ η]

/-- Carries out a command in the course of a reading. -/
def obey (progress : Progress σ η) (command : Command) : Progress σ η × Option ReadingError :=
  let attempt := progress.plotter.attempt command
  let progress :=
    { progress with
      plotter := attempt.plotter
      events := attempt.events.reverseAux progress.events }
  match attempt.result with
  | .ok _ => ({ progress with symbols := progress.symbols + 1 }, none)
  | .error error => (progress, some (.stack error))

/-- Reads one symbol. -/
def readSymbol (alphabet : Alphabet) (progress : Progress σ η) (symbol : Char) :
    Progress σ η × Option ReadingError :=
  match alphabet.commands.get? symbol, alphabet.settings.unbound with
  | some command, _ => obey progress command
  | none, .refuse => (progress, some (.unbound symbol progress.symbols))
  | none, .skip =>
    ({ progress with symbols := progress.symbols + 1, skipped := progress.skipped + 1 }, none)

/-- Reads the symbols of a word until its end or an error. -/
def readFrom (alphabet : Alphabet) :
    Word → Progress σ η → Progress σ η × Option ReadingError
  | [], progress => (progress, none)
  | symbol :: word, progress =>
    match alphabet.readSymbol progress symbol with
    | (progress, none) => alphabet.readFrom word progress
    | (progress, some error) => (progress, some error)

/-- The events that close a reading, last first. -/
def closing (progress : Progress σ η) : List Event :=
  let turtle := progress.plotter.turtle
  let summary := Event.executed progress.symbols turtle.depth progress.plotter.handles.size
  if progress.skipped = 0 then [summary] else [summary, .skipped progress.skipped turtle.name]

/-- Reads a word from beginning to end. -/
def read (alphabet : Alphabet) (word : Word) (plotter : Plotter σ η) : Reading σ η :=
  match alphabet.readFrom word { plotter } with
  | (progress, none) => ⟨progress.plotter, none, (closing progress ++ progress.events).reverse⟩
  | (progress, some error) => ⟨progress.plotter, some error, progress.events.reverse⟩

end Alphabet

end Lindenmayer
