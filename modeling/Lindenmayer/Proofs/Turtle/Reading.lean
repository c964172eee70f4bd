import Lindenmayer.Proofs.Turtle.Course
import Lindenmayer.Turtle.Alphabet

/-!
# The steps of a reading

Reading a symbol is carrying out its command, or dealing with its lack of one. The statements here
say what `Alphabet.readSymbol` and `Alphabet.readFrom` do in terms of `Turtle.carryOut` and
`Plotter.attempt`, so that what is known of turtles and plotters carries over to readings.

`readSymbol_cases` lists all that can become of a symbol; in particular a symbol that ends a reading
leaves its progress as it was. `readFrom_append` takes a word apart, `readFrom_of_error` finds the
symbol that ends a reading, and `readFrom_of_none` accounts for a reading that comes to its end: its
counts, and the commands of its symbols (`Alphabet.commandsOf`), which are all carried out.
-/

set_option autoImplicit false

namespace Lindenmayer

namespace Progress

variable {σ η : Type}

/-- The progress after one more symbol, whose command was carried out. -/
def obeyed (progress : Progress σ η) (attempt : Attempt σ η) : Progress σ η where
  plotter := attempt.plotter
  events := attempt.events.reverse ++ progress.events
  symbols := progress.symbols + 1
  skipped := progress.skipped

/-- The progress after one more symbol, which was passed over. -/
def passed (progress : Progress σ η) : Progress σ η :=
  { progress with symbols := progress.symbols + 1, skipped := progress.skipped + 1 }

end Progress

namespace Alphabet

variable {σ η : Type} [Canvas σ η] {alphabet : Alphabet} {progress next : Progress σ η}

/-! ### One symbol -/

/-- A command that the turtle accepts lets the reading go on with the turtle that it leaves. -/
theorem obey_of_ok {command : Command} {turtle : Turtle} {outline : Option Outline}
    (h : progress.plotter.turtle.carryOut command = (turtle, .ok outline)) :
    ∃ next, obey progress command = (next, none) ∧ next.plotter.turtle = turtle := by
  rw [obey, Plotter.attempt_of_ok h]
  exact ⟨_, rfl, Plotter.turtle_record _ _⟩

/-- A command that the turtle refuses ends the reading where it stands. -/
theorem obey_of_error {command : Command} {error : StackError}
    (h : (progress.plotter.turtle.carryOut command).2 = .error error) :
    obey progress command = (progress, some (.stack error)) := by
  rw [obey, Plotter.attempt_of_error h]
  rfl

/-- A command is carried out, or it ends the reading and has changed nothing. -/
theorem obey_cases (progress : Progress σ η) (command : Command) :
    (∃ handle, (progress.plotter.attempt command).result = .ok handle ∧
      obey progress command = (progress.obeyed (progress.plotter.attempt command), none)) ∨
    ∃ error, progress.plotter.attempt command = ⟨progress.plotter, .error error, []⟩ ∧
      obey progress command = (progress, some (.stack error)) := by
  cases h : (progress.plotter.turtle.carryOut command).2 with
  | error error => exact .inr ⟨error, Plotter.attempt_of_error h, obey_of_error h⟩
  | ok outline =>
    have hattempt := Plotter.attempt_of_ok (Prod.ext rfl h)
    refine .inl ⟨_, by rw [hattempt], ?_⟩
    rw [obey, hattempt, List.reverseAux_eq]
    rfl

theorem readSymbol_of_bound {symbol : Char} {command : Command}
    (h : alphabet.commands.get? symbol = some command) (progress : Progress σ η) :
    alphabet.readSymbol progress symbol = obey progress command := by
  rw [readSymbol, h]

/-- A symbol without a command that is passed over changes nothing but the counts. -/
theorem readSymbol_of_skip {symbol : Char} (h : alphabet.commands.get? symbol = none)
    (hskip : alphabet.settings.unbound = .skip) (progress : Progress σ η) :
    alphabet.readSymbol progress symbol =
      ({ progress with symbols := progress.symbols + 1, skipped := progress.skipped + 1 },
        none) := by
  rw [readSymbol, h, hskip]

/-- A symbol without a command that is refused ends the reading and changes nothing. -/
theorem readSymbol_of_refuse {symbol : Char} (h : alphabet.commands.get? symbol = none)
    (hrefuse : alphabet.settings.unbound = .refuse) (progress : Progress σ η) :
    alphabet.readSymbol progress symbol =
      (progress, some (.unbound symbol progress.symbols)) := by
  rw [readSymbol, h, hrefuse]

/-- What can become of a symbol: its command is carried out or refused, or it has none and is passed
over or refused itself. -/
theorem readSymbol_cases (alphabet : Alphabet) (progress : Progress σ η) (symbol : Char) :
    (∃ command handle, alphabet.commands.get? symbol = some command ∧
      (progress.plotter.attempt command).result = .ok handle ∧
      alphabet.readSymbol progress symbol =
        (progress.obeyed (progress.plotter.attempt command), none)) ∨
    (alphabet.commands.get? symbol = none ∧ alphabet.settings.unbound = .skip ∧
      alphabet.readSymbol progress symbol = (progress.passed, none)) ∨
    (∃ command error, alphabet.commands.get? symbol = some command ∧
      progress.plotter.attempt command = ⟨progress.plotter, .error error, []⟩ ∧
      alphabet.readSymbol progress symbol = (progress, some (.stack error))) ∨
    (alphabet.commands.get? symbol = none ∧ alphabet.settings.unbound = .refuse ∧
      alphabet.readSymbol progress symbol =
        (progress, some (.unbound symbol progress.symbols))) := by
  cases hcommand : alphabet.commands.get? symbol with
  | some command =>
    rw [readSymbol_of_bound hcommand]
    rcases obey_cases progress command with ⟨handle, hresult, hobey⟩ | ⟨error, hattempt, hobey⟩
    · exact .inl ⟨command, handle, rfl, hresult, hobey⟩
    · exact .inr (.inr (.inl ⟨command, error, rfl, hattempt, hobey⟩))
  | none =>
    cases hunbound : alphabet.settings.unbound with
    | skip => exact .inr (.inl ⟨rfl, rfl, readSymbol_of_skip hcommand hunbound progress⟩)
    | refuse =>
      exact .inr (.inr (.inr ⟨rfl, rfl, readSymbol_of_refuse hcommand hunbound progress⟩))

/-- A symbol that ends a reading changes nothing. -/
theorem eq_of_readSymbol_of_some {symbol : Char} {error : ReadingError}
    (h : alphabet.readSymbol progress symbol = (next, some error)) : next = progress := by
  rcases alphabet.readSymbol_cases progress symbol with
    ⟨_, _, -, -, hread⟩ | ⟨-, -, hread⟩ | ⟨_, _, -, -, hread⟩ | ⟨-, -, hread⟩ <;>
    rw [hread] at h <;> cases h <;> rfl

/-! ### A word -/

theorem readFrom_cons_of_none {symbol : Char} (word : Word)
    (h : alphabet.readSymbol progress symbol = (next, none)) :
    alphabet.readFrom (symbol :: word) progress = alphabet.readFrom word next := by
  rw [readFrom, h]

theorem readFrom_cons_of_some {symbol : Char} {error : ReadingError} (word : Word)
    (h : alphabet.readSymbol progress symbol = (next, some error)) :
    alphabet.readFrom (symbol :: word) progress = (next, some error) := by
  rw [readFrom, h]

/-- A word can be read in two parts. The second is not looked at if the first ends the reading. -/
theorem readFrom_append (alphabet : Alphabet) (first second : Word) (progress : Progress σ η) :
    alphabet.readFrom (first ++ second) progress =
      match alphabet.readFrom first progress with
      | (progress, none) => alphabet.readFrom second progress
      | (progress, some error) => (progress, some error) := by
  induction first generalizing progress with
  | nil => rfl
  | cons symbol first ih =>
    rw [List.cons_append, readFrom, readFrom]
    rcases alphabet.readSymbol progress symbol with ⟨next, failure⟩
    cases failure with
    | none => exact ih next
    | some error => rfl

/-- A reading that is ended is ended by a symbol, at the progress that the symbols before it have
made. -/
theorem readFrom_of_error {word : Word} {last : Progress σ η} {error : ReadingError}
    (h : alphabet.readFrom word progress = (last, some error)) :
    ∃ before symbol after, word = before ++ symbol :: after ∧
      alphabet.readFrom before progress = (last, none) ∧
      alphabet.readSymbol last symbol = (last, some error) := by
  induction word generalizing progress with
  | nil => cases h
  | cons symbol word ih =>
    rcases hstep : alphabet.readSymbol progress symbol with ⟨next, failure⟩
    cases failure with
    | none =>
      rw [readFrom_cons_of_none word hstep] at h
      obtain ⟨before, stop, after, rfl, hbefore, hstop⟩ := ih h
      refine ⟨symbol :: before, stop, after, rfl, ?_, hstop⟩
      rw [readFrom_cons_of_none before hstep, hbefore]
    | some other =>
      rw [readFrom_cons_of_some word hstep] at h
      cases h
      obtain rfl := eq_of_readSymbol_of_some hstep
      exact ⟨[], symbol, word, rfl, rfl, hstep⟩

/-- The commands of the symbols of a word, first to last. Symbols without one are left out. -/
def commandsOf (alphabet : Alphabet) (word : Word) : List Command :=
  word.filterMap alphabet.commands.get?

/-- The symbols of a word that have no command. -/
def unboundIn (alphabet : Alphabet) (word : Word) : Word :=
  word.filter fun symbol ↦ (alphabet.commands.get? symbol).isNone

theorem mem_unboundIn {word : Word} {symbol : Char} :
    symbol ∈ alphabet.unboundIn word ↔
      symbol ∈ word ∧ alphabet.commands.get? symbol = none := by
  rw [unboundIn, List.mem_filter, Option.isNone_iff_eq_none]

/-- A reading that comes to the end of its word has carried out the commands of all symbols, has
left the events of these commands, and has counted the symbols and those without a command. -/
theorem readFrom_of_none {word : Word} {last : Progress σ η}
    (h : alphabet.readFrom word progress = (last, none)) :
    last.plotter = progress.plotter.attemptAll (alphabet.commandsOf word) ∧
      last.events =
        (progress.plotter.events (alphabet.commandsOf word)).reverse ++ progress.events ∧
      last.symbols = progress.symbols + word.length ∧
      last.skipped = progress.skipped + (alphabet.unboundIn word).length := by
  induction word generalizing progress with
  | nil =>
    cases h
    exact ⟨rfl, rfl, rfl, rfl⟩
  | cons symbol word ih =>
    rcases alphabet.readSymbol_cases progress symbol with
      ⟨command, handle, hcommand, -, hnext⟩ | ⟨hcommand, -, hnext⟩ | ⟨_, _, -, -, hend⟩ |
      ⟨-, -, hend⟩
    · rw [readFrom_cons_of_none word hnext] at h
      obtain ⟨hplotter, hevents, hsymbols, hskipped⟩ := ih h
      have hcommands : alphabet.commandsOf (symbol :: word) =
          command :: alphabet.commandsOf word := List.filterMap_cons_some hcommand
      have hunbound : alphabet.unboundIn (symbol :: word) = alphabet.unboundIn word :=
        List.filter_cons_of_neg (by rw [hcommand]; exact Bool.false_ne_true)
      rw [hcommands, hunbound, List.length_cons]
      refine ⟨hplotter, ?_, ?_, hskipped⟩
      · rw [hevents, Plotter.events, List.reverse_append, List.append_assoc]
        rfl
      · rw [hsymbols, Progress.obeyed, Nat.add_assoc, Nat.add_comm 1]
    · rw [readFrom_cons_of_none word hnext] at h
      obtain ⟨hplotter, hevents, hsymbols, hskipped⟩ := ih h
      have hcommands : alphabet.commandsOf (symbol :: word) = alphabet.commandsOf word :=
        List.filterMap_cons_none hcommand
      have hunbound : alphabet.unboundIn (symbol :: word) = symbol :: alphabet.unboundIn word :=
        List.filter_cons_of_pos (by rw [hcommand]; rfl)
      rw [hcommands, hunbound, List.length_cons, List.length_cons]
      refine ⟨hplotter, hevents, ?_, ?_⟩
      · rw [hsymbols, Progress.passed, Nat.add_assoc, Nat.add_comm 1]
      · rw [hskipped, Progress.passed, Nat.add_assoc, Nat.add_comm 1]
    · rw [readFrom_cons_of_some word hend] at h
      cases h
    · rw [readFrom_cons_of_some word hend] at h
      cases h

/-- A reading fails as its symbols do, and leaves the plotter where they have brought it. -/
theorem read_of_readFrom {word : Word} {plotter : Plotter σ η} {failure : Option ReadingError}
    (h : alphabet.readFrom word { plotter } = (next, failure)) :
    (alphabet.read word plotter).failure = failure ∧
      (alphabet.read word plotter).plotter = next.plotter := by
  rw [read, h]
  cases failure <;> exact ⟨rfl, rfl⟩

theorem failure_read (alphabet : Alphabet) (word : Word) (plotter : Plotter σ η) :
    (alphabet.read word plotter).failure = (alphabet.readFrom word { plotter }).2 :=
  (read_of_readFrom rfl).1

theorem plotter_read (alphabet : Alphabet) (word : Word) (plotter : Plotter σ η) :
    (alphabet.read word plotter).plotter = (alphabet.readFrom word { plotter }).1.plotter :=
  (read_of_readFrom rfl).2

/-- Whether or not a reading comes to its end, it has carried out a list of commands and left their
events: those of the symbols before the one that has ended it, which has changed nothing. -/
theorem exists_commands_of_readFrom (alphabet : Alphabet) (word : Word) (plotter : Plotter σ η) :
    ∃ commands,
      (alphabet.readFrom word { plotter }).1.plotter = plotter.attemptAll commands ∧
        (alphabet.readFrom word { plotter }).1.events.reverse = plotter.events commands := by
  have hread : ∀ {part : Word} {last : Progress σ η},
      alphabet.readFrom part { plotter } = (last, none) →
        last.plotter = plotter.attemptAll (alphabet.commandsOf part) ∧
          last.events.reverse = plotter.events (alphabet.commandsOf part) := by
    intro part last hpart
    obtain ⟨hplotter, hevents, -, -⟩ := readFrom_of_none hpart
    rw [hevents, List.append_nil, List.reverse_reverse]
    exact ⟨hplotter, rfl⟩
  rcases hword : alphabet.readFrom word { plotter } with ⟨last, failure⟩
  cases failure with
  | none => exact ⟨_, hread hword⟩
  | some error =>
    obtain ⟨before, -, -, -, hbefore, -⟩ := readFrom_of_error hword
    exact ⟨_, hread hbefore⟩

end Alphabet

end Lindenmayer
