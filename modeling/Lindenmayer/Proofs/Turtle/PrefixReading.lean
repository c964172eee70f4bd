import Lindenmayer.Proofs.Turtle.Reading

/-!
# Readings in parts

A reading can be interrupted after any symbol and resumed with the plotter that it has left. What
the resumed reading does, and how it ends, is what the whole reading would have done; only its
counts begin at zero, and so does the index of a symbol without a command. `Progress.resumedAfter`
and `ReadingError.resumedAfter` count in what went before, and `Alphabet.readFrom_resumedAfter` says
that nothing else depends on it.

`Alphabet.read_append_of_some` and `Alphabet.read_append_of_none` are the two ways in which the
first part of a word can be read. `Alphabet.exists_stop_of_read` finds the symbol at which a reading
has ended: the plotter is the one that the symbols before it have left, because a symbol that ends a
reading has changed nothing. `read_in_parts` puts them together.
-/

set_option autoImplicit false

namespace Lindenmayer

/-- The error of a reading that was resumed after `earlier` symbols, with these counted in. -/
def ReadingError.resumedAfter (earlier : Nat) : ReadingError → ReadingError
  | unbound symbol index => unbound symbol (earlier + index)
  | stack error => stack error

variable {σ η : Type}

/-- The progress of a reading that was resumed after an earlier one, with that one counted in. -/
def Progress.resumedAfter (earlier later : Progress σ η) : Progress σ η where
  plotter := later.plotter
  events := later.events ++ earlier.events
  symbols := earlier.symbols + later.symbols
  skipped := earlier.skipped + later.skipped

namespace Alphabet

variable [Canvas σ η] {alphabet : Alphabet} {plotter : Plotter σ η}

/-! ### Resumed readings -/

theorem obey_resumedAfter (earlier later : Progress σ η) (command : Command) :
    obey (earlier.resumedAfter later) command =
      (earlier.resumedAfter (obey later command).1,
        (obey later command).2.map (·.resumedAfter earlier.symbols)) := by
  have hplotter : (earlier.resumedAfter later).plotter = later.plotter := rfl
  rw [obey, obey, hplotter]
  rcases later.plotter.attempt command with ⟨plotter, result, events⟩
  have hevents : events.reverseAux (later.events ++ earlier.events) =
      events.reverseAux later.events ++ earlier.events := by
    rw [List.reverseAux_eq, List.reverseAux_eq, List.append_assoc]
  cases result with
  | ok handle => simp only [Progress.resumedAfter, hevents, Nat.add_assoc, Option.map_none]
  | error error =>
    simp only [Progress.resumedAfter, hevents, Option.map_some, ReadingError.resumedAfter]

/-- What becomes of a symbol does not depend on what was read before the reading was resumed. -/
theorem readSymbol_resumedAfter (alphabet : Alphabet) (earlier later : Progress σ η)
    (symbol : Char) :
    alphabet.readSymbol (earlier.resumedAfter later) symbol =
      (earlier.resumedAfter (alphabet.readSymbol later symbol).1,
        (alphabet.readSymbol later symbol).2.map (·.resumedAfter earlier.symbols)) := by
  cases hcommand : alphabet.commands.get? symbol with
  | some command =>
    rw [readSymbol_of_bound hcommand, readSymbol_of_bound hcommand, obey_resumedAfter]
  | none =>
    cases hunbound : alphabet.settings.unbound with
    | refuse =>
      rw [readSymbol_of_refuse hcommand hunbound, readSymbol_of_refuse hcommand hunbound]
      rfl
    | skip =>
      rw [readSymbol_of_skip hcommand hunbound, readSymbol_of_skip hcommand hunbound]
      rfl

/-- Nor does what becomes of a word. -/
theorem readFrom_resumedAfter (alphabet : Alphabet) (earlier later : Progress σ η) (word : Word) :
    alphabet.readFrom word (earlier.resumedAfter later) =
      (earlier.resumedAfter (alphabet.readFrom word later).1,
        (alphabet.readFrom word later).2.map (·.resumedAfter earlier.symbols)) := by
  induction word generalizing later with
  | nil => rfl
  | cons symbol word ih =>
    rw [readFrom, readFrom, readSymbol_resumedAfter]
    rcases alphabet.readSymbol later symbol with ⟨next, failure⟩
    cases failure with
    | none => exact ih next
    | some error => rfl

/-! ### Words in two parts -/

/-- If the first part of a word ends the reading, the second part is not looked at. -/
theorem read_append_of_some {first : Word} {error : ReadingError}
    (h : (alphabet.read first plotter).failure = some error) (second : Word) :
    (alphabet.read (first ++ second) plotter).failure = some error ∧
      (alphabet.read (first ++ second) plotter).plotter =
        (alphabet.read first plotter).plotter := by
  have hwhole := alphabet.readFrom_append first second { plotter }
  rw [failure_read] at h
  rw [plotter_read alphabet first]
  rcases hfirst : alphabet.readFrom first { plotter } with ⟨last, failure⟩
  rw [hfirst] at h hwhole
  obtain rfl : failure = some error := h
  exact read_of_readFrom hwhole

/-- If the first part of a word is read to its end, the second part is read on from there. -/
theorem read_append_of_none {first : Word} (h : (alphabet.read first plotter).failure = none)
    (second : Word) :
    (alphabet.read (first ++ second) plotter).failure =
        (alphabet.read second (alphabet.read first plotter).plotter).failure.map
          (·.resumedAfter first.length) ∧
      (alphabet.read (first ++ second) plotter).plotter =
        (alphabet.read second (alphabet.read first plotter).plotter).plotter := by
  have hwhole := alphabet.readFrom_append first second { plotter }
  rw [failure_read] at h
  rw [failure_read alphabet second, plotter_read alphabet second, plotter_read alphabet first]
  rcases hfirst : alphabet.readFrom first { plotter } with ⟨last, failure⟩
  rw [hfirst] at h hwhole
  obtain rfl : failure = none := h
  obtain ⟨-, -, hsymbols, -⟩ := readFrom_of_none hfirst
  rw [Nat.zero_add] at hsymbols
  have hresumed := alphabet.readFrom_resumedAfter last { plotter := last.plotter } second
  have hlast : last.resumedAfter { plotter := last.plotter } = last := rfl
  rw [hlast, hsymbols] at hresumed
  obtain ⟨hfailure, hplotter⟩ := read_of_readFrom (hwhole.trans hresumed)
  exact ⟨hfailure, hplotter⟩

/-! ### The end of a reading -/

/-- What ends a reading at a symbol with index `index`, when it has come to this plotter: the
command of the symbol is refused, which changes nothing, or it has none and the alphabet refuses
such symbols. -/
def Stops (alphabet : Alphabet) (plotter : Plotter σ η) (symbol : Char) (index : Nat)
    (error : ReadingError) : Prop :=
  (∃ command refusal, alphabet.commands.get? symbol = some command ∧
    plotter.attempt command = ⟨plotter, .error refusal, []⟩ ∧ error = .stack refusal) ∨
  alphabet.commands.get? symbol = none ∧ alphabet.settings.unbound = .refuse ∧
    error = .unbound symbol index

theorem stops_of_readSymbol {progress next : Progress σ η} {symbol : Char} {error : ReadingError}
    (h : alphabet.readSymbol progress symbol = (next, some error)) :
    alphabet.Stops progress.plotter symbol progress.symbols error := by
  rcases alphabet.readSymbol_cases progress symbol with
    ⟨_, _, -, -, hread⟩ | ⟨-, -, hread⟩ | ⟨command, refusal, hcommand, hattempt, hread⟩ |
    ⟨hcommand, hrefuse, hread⟩ <;> rw [hread] at h <;> obtain ⟨-, herror⟩ := Prod.mk.inj h
  · cases herror
  · cases herror
  · exact .inl ⟨command, refusal, hcommand, hattempt, (Option.some.inj herror).symm⟩
  · exact .inr ⟨hcommand, hrefuse, (Option.some.inj herror).symm⟩

/-- A reading that is ended is ended by the symbol at some index, and leaves what the symbols before
this index have left. -/
theorem exists_stop_of_read {word : Word} {error : ReadingError}
    (h : (alphabet.read word plotter).failure = some error) :
    ∃ index symbol, word[index]? = some symbol ∧
      (alphabet.read (word.take index) plotter).failure = none ∧
      (alphabet.read word plotter).plotter = (alphabet.read (word.take index) plotter).plotter ∧
      alphabet.Stops (alphabet.read (word.take index) plotter).plotter symbol index error := by
  rw [failure_read] at h
  rcases hread : alphabet.readFrom word { plotter } with ⟨last, failure⟩
  rw [hread] at h
  obtain rfl : failure = some error := h
  obtain ⟨before, symbol, after, rfl, hbefore, hstop⟩ := readFrom_of_error hread
  obtain ⟨-, -, hsymbols, -⟩ := readFrom_of_none hbefore
  rw [Nat.zero_add] at hsymbols
  have htake : (before ++ symbol :: after).take before.length = before := List.take_left
  obtain ⟨hfailure, hplotter⟩ := read_of_readFrom hbefore
  refine ⟨before.length, symbol, ?_, ?_, ?_, ?_⟩
  · rw [List.getElem?_append_right (Nat.le_refl _), Nat.sub_self]
    rfl
  · rw [htake, hfailure]
  · rw [htake, hplotter, (read_of_readFrom hread).2]
  · rw [htake, hplotter, ← hsymbols]
    exact stops_of_readSymbol hstop

/-- An alphabet that refuses symbols without a command has one for every symbol that it reads. -/
theorem isSome_of_readFrom (hrefuse : alphabet.settings.unbound = .refuse) {word : Word}
    {progress last : Progress σ η} (h : alphabet.readFrom word progress = (last, none)) :
    ∀ symbol ∈ word, (alphabet.commands.get? symbol).isSome = true := by
  intro symbol hsymbol
  obtain ⟨before, after, rfl⟩ := List.append_of_mem hsymbol
  rw [readFrom_append] at h
  rcases hbefore : alphabet.readFrom before progress with ⟨middle, failure⟩
  rw [hbefore] at h
  cases failure with
  | some error => cases h
  | none =>
    cases hcommand : alphabet.commands.get? symbol with
    | some command => rfl
    | none =>
      have hstop := readSymbol_of_refuse hcommand hrefuse middle
      change alphabet.readFrom (symbol :: after) middle = (last, none) at h
      rw [readFrom_cons_of_some after hstop] at h
      cases h

/-- An unbound symbol is reported only by an alphabet that refuses such symbols, and then it is the
first one in the word, with its index. -/
theorem first_unbound_of_read {word : Word} {symbol : Char} {index : Nat}
    (h : (alphabet.read word plotter).failure = some (.unbound symbol index)) :
    alphabet.settings.unbound = .refuse ∧ word[index]? = some symbol ∧
      alphabet.commands.get? symbol = none ∧
      ∀ other ∈ word.take index, (alphabet.commands.get? other).isSome = true := by
  obtain ⟨stop, found, hfound, hbefore, -, hstops⟩ := exists_stop_of_read h
  rcases hstops with ⟨_, _, -, -, herror⟩ | ⟨hnone, hrefuse, herror⟩
  · cases herror
  · obtain ⟨rfl, rfl⟩ := ReadingError.unbound.inj herror
    refine ⟨hrefuse, hfound, hnone, ?_⟩
    rw [failure_read] at hbefore
    exact isSome_of_readFrom hrefuse (Prod.ext rfl hbefore)

/-- Readings in parts, for all alphabets, plotters and words. If the first part of a word ends the
reading, the whole word ends it with the same error and the same plotter. If it does not, the second
part is read as it would be read with the plotter that the first part has left, and the index of an
unbound symbol is increased by the number of symbols of the first part.

A reading that is ended is ended at some index. The plotter it leaves is the one that the symbols
before this index leave when they are read alone, without an error, and the command of the symbol
there, if it has one, has changed nothing. An unbound symbol is reported only by an alphabet that
refuses such symbols; it is the first one in the word, and it stands at the index reported. -/
theorem read_in_parts (alphabet : Alphabet) (plotter : Plotter σ η) :
    (∀ first second error, (alphabet.read first plotter).failure = some error →
      (alphabet.read (first ++ second) plotter).failure = some error ∧
        (alphabet.read (first ++ second) plotter).plotter =
          (alphabet.read first plotter).plotter) ∧
    (∀ first second, (alphabet.read first plotter).failure = none →
      let rest := alphabet.read second (alphabet.read first plotter).plotter
      (alphabet.read (first ++ second) plotter).failure =
          rest.failure.map (·.resumedAfter first.length) ∧
        (alphabet.read (first ++ second) plotter).plotter = rest.plotter) ∧
    (∀ word error, (alphabet.read word plotter).failure = some error →
      ∃ index symbol, word[index]? = some symbol ∧
        let before := alphabet.read (word.take index) plotter
        before.failure = none ∧ (alphabet.read word plotter).plotter = before.plotter ∧
          alphabet.Stops before.plotter symbol index error) ∧
    ∀ word symbol index, (alphabet.read word plotter).failure = some (.unbound symbol index) →
      alphabet.settings.unbound = .refuse ∧ word[index]? = some symbol ∧
        alphabet.commands.get? symbol = none ∧
        ∀ other ∈ word.take index, (alphabet.commands.get? other).isSome = true := by
  refine ⟨?_, ?_, ?_, ?_⟩
  · intro first second error hfirst
    exact read_append_of_some hfirst second
  · intro first second hfirst
    exact read_append_of_none hfirst second
  · intro word error hword
    exact exists_stop_of_read hword
  · intro word symbol index hword
    exact first_unbound_of_read hword

/-- Two words whose second parts cannot be read to their ends, with a symbol of more than one byte
in their first parts. In one the third snapshot has no room: the reading leaves the live snapshot
and the two below it that the symbols before the last `[` have left. In the other an arrow has no
command: it is reported with its index among the symbols of the whole word, and all symbols before
it have one. -/
theorem second_parts_end_early :
    let alphabet := ({} : Alphabet).withStandard.bind 'é' .ignore
    let plotter : Plotter Sketchbook Nat :=
      { turtle := .initial "pen" .poly { maxDepth := 3 }, canvas := {} }
    let first := "é[Fé".toList
    let full := alphabet.read (first ++ "[F[G".toList) plotter
    let start := Snapshot.initial Vector3.zero .poly
    full.failure = some (.stack (.overflow 3)) ∧
      full.plotter.turtle.live = { start with position := ⟨2, 0, 0⟩ } ∧
      full.plotter.turtle.saved = [{ start with position := ⟨1, 0, 0⟩ }, start] ∧
      (alphabet.read (first ++ "[F".toList) plotter).failure = none ∧
      (alphabet.read (first ++ "]→".toList) plotter).failure = some (.unbound '→' 5) ∧
      ∀ other ∈ "é[Fé]".toList, (alphabet.commands.get? other).isSome = true := by
  intro alphabet plotter first full start
  obtain ⟨-, hresume, -, hunbound⟩ := read_in_parts alphabet plotter
  obtain ⟨hfailure, hplotter⟩ := hresume first "[F[G".toList rfl
  have hfull : full.failure = some (.stack (.overflow 3)) := hfailure.trans rfl
  obtain ⟨hlive, hsaved⟩ : full.plotter.turtle.live = { start with position := ⟨2, 0, 0⟩ } ∧
      full.plotter.turtle.saved = [{ start with position := ⟨1, 0, 0⟩ }, start] := by
    rw [hplotter]
    decide +kernel
  obtain ⟨hbefore, -⟩ := hresume first "[F".toList rfl
  obtain ⟨hunread, -⟩ := hresume first "]→".toList rfl
  have harrow : (alphabet.read (first ++ "]→".toList) plotter).failure =
      some (.unbound '→' 5) := hunread.trans rfl
  obtain ⟨-, -, -, hbound⟩ := hunbound _ _ _ harrow
  exact ⟨hfull, hlive, hsaved, hbefore.trans rfl, harrow, hbound⟩

end Alphabet

end Lindenmayer
