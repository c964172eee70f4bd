import Lindenmayer.Proofs.Turtle.PrefixReading

/-!
# Words with unbound symbols

An alphabet that passes over symbols without a command does with a word what an alphabet that
refuses them does with the word without these symbols, or with the word itself once these symbols
are bound to doing nothing. `Alphabet.skipping` and `Alphabet.refusing` are the two policies,
`Alphabet.boundIn` deletes the unbound symbols of a word and `Alphabet.ignoring` binds them.

The readings are followed symbol by symbol. `Progress.SameWork` is the invariant: the plotters and
the events are the same, the counts need not be. `SameEnd` adds that both readings go on, or that
both are ended by the same error; `Alphabet.readFrom_cons_sameEnd` is the step for two words, and
`Alphabet.skipping_sameEnd_boundIn` and `Alphabet.skipping_sameEnd_of_get?` are the runs.

The counts appear only in the events that close a reading, `Alphabet.closingEvents`.
`skipping_agrees` puts everything together.
-/

set_option autoImplicit false

namespace Lindenmayer

variable {σ η : Type}

/-! ### Alphabets and words -/

namespace Alphabet

/-- The alphabet with the same commands that refuses symbols without one. -/
def refusing (alphabet : Alphabet) : Alphabet :=
  { alphabet with settings := { alphabet.settings with unbound := .refuse } }

/-- The alphabet with the same commands that passes over symbols without one. -/
def skipping (alphabet : Alphabet) : Alphabet :=
  { alphabet with settings := { alphabet.settings with unbound := .skip } }

/-- A word without its unbound symbols. -/
def boundIn (alphabet : Alphabet) (word : Word) : Word :=
  word.filter fun symbol ↦ (alphabet.commands.get? symbol).isSome

/-- The alphabet in which the unbound symbols of a word are bound to doing nothing. -/
def ignoring (alphabet : Alphabet) (word : Word) : Alphabet :=
  (alphabet.unboundIn word).foldl (fun alphabet symbol ↦ alphabet.bind symbol .ignore) alphabet

/-- Binding symbols to doing nothing affects these symbols only. -/
theorem get?_foldl_bind_ignore (alphabet : Alphabet) (symbols : Word) (symbol : Char) :
    (symbols.foldl (fun alphabet symbol ↦ alphabet.bind symbol .ignore) alphabet).commands.get?
        symbol =
      if symbol ∈ symbols then some .ignore else alphabet.commands.get? symbol := by
  induction symbols generalizing alphabet with
  | nil => rfl
  | cons first rest ih =>
    rw [List.foldl_cons, ih, bind, SymbolTable.get?_insert]
    by_cases hrest : symbol ∈ rest
    · rw [if_pos hrest, if_pos (List.mem_cons_of_mem first hrest)]
    · rw [if_neg hrest]
      by_cases hfirst : symbol = first
      · rw [if_pos hfirst, if_pos (List.mem_cons.mpr (.inl hfirst))]
      · rw [if_neg hfirst, if_neg fun hmem ↦ (List.mem_cons.mp hmem).elim hfirst hrest]

/-- Every symbol of the word has its command in the extended alphabet, or does nothing. -/
theorem get?_ignoring (alphabet : Alphabet) {word : Word} {symbol : Char} (h : symbol ∈ word) :
    (alphabet.ignoring word).commands.get? symbol =
      some ((alphabet.commands.get? symbol).getD .ignore) := by
  rw [ignoring, get?_foldl_bind_ignore]
  by_cases hunbound : symbol ∈ alphabet.unboundIn word
  · rw [if_pos hunbound, (mem_unboundIn.mp hunbound).2, Option.getD_none]
  · have hbound : alphabet.commands.get? symbol ≠ none := fun hnone ↦
      hunbound (mem_unboundIn.mpr ⟨h, hnone⟩)
    obtain ⟨command, hcommand⟩ := Option.ne_none_iff_exists'.mp hbound
    rw [if_neg hunbound, hcommand, Option.getD_some]

/-- No symbol that is left in a word without its unbound symbols is unbound. -/
theorem unboundIn_boundIn (alphabet : Alphabet) (word : Word) :
    alphabet.unboundIn (alphabet.boundIn word) = [] := by
  apply List.eq_nil_iff_forall_not_mem.mpr
  intro symbol hunbound
  obtain ⟨hsymbol, hnone⟩ := mem_unboundIn.mp hunbound
  have hbound := (List.mem_filter.mp hsymbol).2
  rw [hnone] at hbound
  cases hbound

/-- No symbol of a word is unbound in the extended alphabet. -/
theorem unboundIn_ignoring (alphabet : Alphabet) (word : Word) :
    (alphabet.ignoring word).unboundIn word = [] := by
  apply List.eq_nil_iff_forall_not_mem.mpr
  intro symbol hunbound
  obtain ⟨hsymbol, hnone⟩ := mem_unboundIn.mp hunbound
  rw [alphabet.get?_ignoring hsymbol] at hnone
  cases hnone

end Alphabet

/-! ### Two readings side by side -/

/-- Two states of progress with the same plotter and the same events. -/
structure Progress.SameWork (first second : Progress σ η) : Prop where
  plotter_eq : first.plotter = second.plotter
  events_eq : first.events = second.events

/-- Two readings that have done the same work, and both go on or are ended by the same error. -/
structure SameEnd (first second : Progress σ η × Option ReadingError) : Prop where
  work : first.1.SameWork second.1
  failure_eq : first.2 = second.2

variable [Canvas σ η]

namespace Alphabet

/-- A command is carried out the same way whatever the counts are. -/
theorem obey_sameEnd {first second : Progress σ η} (h : first.SameWork second) (command : Command) :
    SameEnd (obey first command) (obey second command) := by
  obtain ⟨hplotter, hevents⟩ := h
  rw [obey, obey, hplotter, hevents]
  rcases second.plotter.attempt command with ⟨plotter, result, events⟩
  cases result with
  | ok handle => exact ⟨⟨rfl, rfl⟩, rfl⟩
  | error error => exact ⟨⟨rfl, rfl⟩, rfl⟩

/-- Readings whose next symbols end the same, and whose rests do so from the same work on, end the
same. -/
theorem readFrom_cons_sameEnd {one two : Alphabet} {first second : Progress σ η}
    {symbol other : Char} {word rest : Word}
    (hstep : SameEnd (one.readSymbol first symbol) (two.readSymbol second other))
    (hrest : ∀ {first second : Progress σ η}, first.SameWork second →
      SameEnd (one.readFrom word first) (two.readFrom rest second)) :
    SameEnd (one.readFrom (symbol :: word) first) (two.readFrom (other :: rest) second) := by
  obtain ⟨hwork, hfailure⟩ := hstep
  rcases hone : one.readSymbol first symbol with ⟨next, failure⟩
  rcases htwo : two.readSymbol second other with ⟨nextOther, failureOther⟩
  rw [hone, htwo] at hwork hfailure
  obtain rfl : failure = failureOther := hfailure
  cases failure with
  | none =>
    rw [readFrom_cons_of_none word hone, readFrom_cons_of_none rest htwo]
    exact hrest hwork
  | some error =>
    rw [readFrom_cons_of_some word hone, readFrom_cons_of_some rest htwo]
    exact ⟨hwork, rfl⟩

theorem readSymbol_skipping_of_none (alphabet : Alphabet) {symbol : Char}
    (h : alphabet.commands.get? symbol = none) (progress : Progress σ η) :
    alphabet.skipping.readSymbol progress symbol = (progress.passed, none) := by
  have hskipping : alphabet.skipping.commands.get? symbol = none := h
  exact readSymbol_of_skip hskipping rfl progress

theorem readSymbol_skipping_of_some (alphabet : Alphabet) {symbol : Char} {command : Command}
    (h : alphabet.commands.get? symbol = some command) (progress : Progress σ η) :
    alphabet.skipping.readSymbol progress symbol = obey progress command := by
  have hskipping : alphabet.skipping.commands.get? symbol = some command := h
  exact readSymbol_of_bound hskipping progress

/-- Passing over unbound symbols is as good as deleting them. -/
theorem skipping_sameEnd_boundIn (alphabet : Alphabet) (word : Word) {first second : Progress σ η}
    (h : first.SameWork second) :
    SameEnd (alphabet.skipping.readFrom word first)
      (alphabet.refusing.readFrom (alphabet.boundIn word) second) := by
  induction word generalizing first second with
  | nil => exact ⟨h, rfl⟩
  | cons symbol word ih =>
    cases hcommand : alphabet.commands.get? symbol with
    | none =>
      have hdropped : alphabet.boundIn (symbol :: word) = alphabet.boundIn word :=
        List.filter_cons_of_neg (by rw [hcommand]; exact Bool.false_ne_true)
      have hpassed := alphabet.readSymbol_skipping_of_none hcommand first
      rw [hdropped, readFrom_cons_of_none word hpassed]
      exact ih ⟨h.plotter_eq, h.events_eq⟩
    | some command =>
      have hkept : alphabet.boundIn (symbol :: word) = symbol :: alphabet.boundIn word :=
        List.filter_cons_of_pos (by rw [hcommand]; rfl)
      have hrefusing : alphabet.refusing.commands.get? symbol = some command := hcommand
      rw [hkept]
      refine readFrom_cons_sameEnd ?_ ih
      rw [alphabet.readSymbol_skipping_of_some hcommand, readSymbol_of_bound hrefusing]
      exact obey_sameEnd h command

/-- Passing over unbound symbols is as good as binding them to doing nothing, but for the count of
those passed over. Assumes: every symbol of the word has its command in the other alphabet too, or
is bound to doing nothing there. -/
theorem skipping_sameEnd_of_get? (alphabet : Alphabet) {other : Alphabet} {word : Word}
    (hother : ∀ symbol ∈ word, other.commands.get? symbol =
      some ((alphabet.commands.get? symbol).getD .ignore))
    {first second : Progress σ η} (h : first.SameWork second) :
    SameEnd (alphabet.skipping.readFrom word first) (other.readFrom word second) := by
  induction word generalizing first second with
  | nil => exact ⟨h, rfl⟩
  | cons symbol word ih =>
    obtain ⟨hsymbol, hword⟩ := List.forall_mem_cons.mp hother
    refine readFrom_cons_sameEnd ?_ (ih hword)
    rw [readSymbol_of_bound hsymbol]
    cases hcommand : alphabet.commands.get? symbol with
    | none =>
      rw [alphabet.readSymbol_skipping_of_none hcommand]
      exact ⟨⟨h.plotter_eq, h.events_eq⟩, rfl⟩
    | some command =>
      rw [alphabet.readSymbol_skipping_of_some hcommand]
      exact obey_sameEnd h command

/-! ### Events -/

/-- The events that close a reading that has come to the end of its word, first to last: a warning
if there were unbound symbols, and a summary. -/
def closingEvents (alphabet : Alphabet) (word : Word) (plotter : Plotter σ η) : List Event :=
  let count := (alphabet.unboundIn word).length
  (if count = 0 then [] else [.skipped count plotter.turtle.name]) ++
    [.executed word.length plotter.turtle.depth plotter.handles.size]

theorem events_read_of_some {alphabet : Alphabet} {word : Word} {plotter : Plotter σ η}
    {last : Progress σ η} {error : ReadingError}
    (h : alphabet.readFrom word { plotter } = (last, some error)) :
    (alphabet.read word plotter).events = last.events.reverse := by
  rw [read, h]

/-- A reading that has come to the end of its word closes with the counts of its symbols. -/
theorem events_read_of_none {alphabet : Alphabet} {word : Word} {plotter : Plotter σ η}
    {last : Progress σ η} (h : alphabet.readFrom word { plotter } = (last, none)) :
    (alphabet.read word plotter).events =
      last.events.reverse ++ alphabet.closingEvents word last.plotter := by
  obtain ⟨-, -, hsymbols, hskipped⟩ := readFrom_of_none h
  rw [Nat.zero_add] at hsymbols hskipped
  have hclosing : (closing last).reverse = alphabet.closingEvents word last.plotter := by
    rw [closingEvents, closing, ← hsymbols, ← hskipped]
    by_cases hzero : last.skipped = 0
    · rw [if_pos hzero, if_pos hzero]
      rfl
    · rw [if_neg hzero, if_neg hzero]
      rfl
  rw [← hclosing, ← List.reverse_append, read, h]

omit [Canvas σ η] in
theorem closingEvents_of_unboundIn_eq_nil {alphabet : Alphabet} {word : Word}
    (h : alphabet.unboundIn word = []) (plotter : Plotter σ η) :
    alphabet.closingEvents word plotter =
      [.executed word.length plotter.turtle.depth plotter.handles.size] := by
  rw [closingEvents, h]
  rfl

/-- Readings that end the same fail the same and leave the same plotter. -/
theorem read_eq_of_sameEnd {one two : Alphabet} {word rest : Word} {plotter : Plotter σ η}
    (h : SameEnd (one.readFrom word { plotter }) (two.readFrom rest { plotter })) :
    (two.read rest plotter).failure = (one.read word plotter).failure ∧
      (two.read rest plotter).plotter = (one.read word plotter).plotter := by
  rw [failure_read, failure_read, plotter_read, plotter_read]
  exact ⟨h.failure_eq.symm, h.work.plotter_eq.symm⟩

/-- Readings that end the same leave the same events, but for those that close them. -/
theorem events_read_of_sameEnd {one two : Alphabet} {word rest : Word} {plotter : Plotter σ η}
    (h : SameEnd (one.readFrom word { plotter }) (two.readFrom rest { plotter })) :
    let drawn := (one.readFrom word { plotter }).1.events.reverse
    ((one.read word plotter).failure ≠ none → (two.read rest plotter).events = drawn) ∧
      ((one.read word plotter).failure = none → (two.read rest plotter).events =
        drawn ++ two.closingEvents rest (one.read word plotter).plotter) := by
  intro drawn
  rw [failure_read, plotter_read]
  obtain ⟨⟨hplotter, hevents⟩, hfailure⟩ := h
  rcases hrest : two.readFrom rest { plotter } with ⟨last, failure⟩
  rw [hrest] at hplotter hevents hfailure
  have hdrawn : drawn = last.events.reverse := congrArg List.reverse hevents
  rw [hfailure, hplotter, hdrawn]
  cases failure with
  | some error =>
    refine ⟨fun _ ↦ events_read_of_some hrest, fun hnone ↦ ?_⟩
    cases hnone
  | none => exact ⟨fun hsome ↦ absurd rfl hsome, fun _ ↦ events_read_of_none hrest⟩

end Alphabet

/-- The events of commands are those of drawn curves, and each of them stands for a new handle. -/
theorem Plotter.created_of_mem_events (plotter : Plotter σ η) (commands : List Command) :
    (∀ event ∈ plotter.events commands,
        ∃ points kind, event = .created plotter.turtle.name points kind) ∧
      (plotter.attemptAll commands).handles.size =
        plotter.handles.size + (plotter.events commands).length := by
  rw [events_eq]
  constructor
  · intro event hevent
    obtain ⟨outline, -, rfl⟩ := List.mem_map.mp hevent
    exact ⟨outline.pointCount, outline.kind, rfl⟩
  · rw [List.length_map, size_handles_attemptAll]

/-- The policies about unbound symbols agree, for all commands, words and plotters. The reading that
passes over them fails as the refusing one of the word without them, and as the refusing one of the
word with them bound to doing nothing, and leaves the same plotter; it never reports an unbound
symbol.

All three leave the same events of drawn curves, one for each new handle. If they fail, they leave
nothing else. If they do not, the first one closes with a warning that counts the unbound symbols,
unless there are none, and a summary that counts all symbols; the others close with a summary of
the symbols of their words. -/
theorem skipping_agrees (alphabet : Alphabet) (word : Word) (plotter : Plotter σ η) :
    let skipping := alphabet.skipping.read word plotter
    let deleted := alphabet.refusing.read (alphabet.boundIn word) plotter
    let ignored := (alphabet.refusing.ignoring word).read word plotter
    let count := (alphabet.unboundIn word).length
    let summary (symbols : Nat) : Event :=
      .executed symbols skipping.plotter.turtle.depth skipping.plotter.handles.size
    (deleted.failure = skipping.failure ∧ deleted.plotter = skipping.plotter) ∧
    (ignored.failure = skipping.failure ∧ ignored.plotter = skipping.plotter) ∧
    (∀ symbol index, skipping.failure ≠ some (.unbound symbol index)) ∧
    ∃ drawn : List Event,
      (∀ event ∈ drawn, ∃ points kind, event = .created plotter.turtle.name points kind) ∧
      skipping.plotter.handles.size = plotter.handles.size + drawn.length ∧
      (skipping.failure ≠ none →
        skipping.events = drawn ∧ deleted.events = drawn ∧ ignored.events = drawn) ∧
      (skipping.failure = none →
        skipping.events =
            drawn ++ (if count = 0 then [] else [.skipped count plotter.turtle.name]) ++
              [summary word.length] ∧
          deleted.events = drawn ++ [summary (alphabet.boundIn word).length] ∧
          ignored.events = drawn ++ [summary word.length]) := by
  intro skipping deleted ignored count summary
  have hskipping : SameEnd (alphabet.skipping.readFrom word { plotter })
      (alphabet.skipping.readFrom word { plotter }) := ⟨⟨rfl, rfl⟩, rfl⟩
  have hdeleted : SameEnd (alphabet.skipping.readFrom word { plotter })
      (alphabet.refusing.readFrom (alphabet.boundIn word) { plotter }) :=
    alphabet.skipping_sameEnd_boundIn word ⟨rfl, rfl⟩
  have hignored : SameEnd (alphabet.skipping.readFrom word { plotter })
      ((alphabet.refusing.ignoring word).readFrom word { plotter }) := by
    refine alphabet.skipping_sameEnd_of_get? ?_ ⟨rfl, rfl⟩
    intro symbol hsymbol
    exact alphabet.refusing.get?_ignoring hsymbol
  obtain ⟨commands, hplotter, hevents⟩ :=
    alphabet.skipping.exists_commands_of_readFrom word plotter
  rw [← Alphabet.plotter_read] at hplotter
  obtain ⟨hcreated, hhandles⟩ := plotter.created_of_mem_events commands
  refine ⟨Alphabet.read_eq_of_sameEnd hdeleted, Alphabet.read_eq_of_sameEnd hignored, ?_,
    plotter.events commands, hcreated, ?_, ?_, ?_⟩
  · intro symbol index hunbound
    obtain ⟨hrefuse, -⟩ := Alphabet.first_unbound_of_read hunbound
    cases hrefuse
  · show (alphabet.skipping.read word plotter).plotter.handles.size = _
    rw [hplotter, hhandles]
  · intro hfailure
    rw [← hevents]
    exact ⟨(Alphabet.events_read_of_sameEnd hskipping).1 hfailure,
      (Alphabet.events_read_of_sameEnd hdeleted).1 hfailure,
      (Alphabet.events_read_of_sameEnd hignored).1 hfailure⟩
  · intro hfailure
    rw [← hevents]
    refine ⟨?_, ?_, ?_⟩
    · have hname : skipping.plotter.turtle.name = plotter.turtle.name := by
        show (alphabet.skipping.read word plotter).plotter.turtle.name = _
        rw [hplotter, Plotter.turtle_attemptAll]
        exact (plotter.turtle.name_setup_after commands).1
      rw [← hname, List.append_assoc]
      exact (Alphabet.events_read_of_sameEnd hskipping).2 hfailure
    · have hnone : alphabet.refusing.unboundIn (alphabet.boundIn word) = [] :=
        alphabet.unboundIn_boundIn word
      refine ((Alphabet.events_read_of_sameEnd hdeleted).2 hfailure).trans ?_
      rw [Alphabet.closingEvents_of_unboundIn_eq_nil hnone]
    · refine ((Alphabet.events_read_of_sameEnd hignored).2 hfailure).trans ?_
      rw [Alphabet.closingEvents_of_unboundIn_eq_nil (alphabet.refusing.unboundIn_ignoring word)]

/-- A word with two unbound symbols that is read to its end, and one in which a bracket ends the
reading after one of them. -/
theorem skipped_symbols_are_counted :
    let alphabet := (({} : Alphabet).withStandard.bind 'd' .penDown).bind 'u' .penUp
    let plotter : Plotter Sketchbook Nat := { turtle := .initial "pen" .poly {}, canvas := {} }
    (∃ drawn : List Event, drawn.length = 1 ∧
      (alphabet.skipping.read "[dF?u→]".toList plotter).events =
        drawn ++ [.skipped 2 "pen"] ++ [.executed 7 1 1] ∧
      (alphabet.refusing.read "[dFu]".toList plotter).events = drawn ++ [.executed 5 1 1]) ∧
    (alphabet.refusing.read "dFu]".toList plotter).failure = some (.stack .empty) ∧
    ∃ drawn : List Event, drawn.length = 1 ∧
      (alphabet.skipping.read "dF?u]→".toList plotter).events = drawn ∧
      (alphabet.refusing.read "dFu]".toList plotter).events = drawn := by
  intro alphabet plotter
  obtain ⟨-, -, -, drawn, -, hdrawn, -, hread⟩ := skipping_agrees alphabet "[dF?u→]".toList plotter
  obtain ⟨hskipping, hrefusing, -⟩ := hread rfl
  obtain ⟨⟨hfailure, -⟩, -, -, early, -, hearly, hended, -⟩ :=
    skipping_agrees alphabet "dF?u]→".toList plotter
  have hempty : (alphabet.skipping.read "dF?u]→".toList plotter).failure =
      some (.stack .empty) := rfl
  obtain ⟨hskippingEarly, hrefusingEarly, -⟩ :=
    hended (by rw [hempty]; exact Option.some_ne_none _)
  exact ⟨⟨drawn, (hdrawn.trans (Nat.zero_add _)).symm, hskipping, hrefusing⟩,
    hfailure.trans hempty, early, (hearly.trans (Nat.zero_add _)).symm, hskippingEarly,
    hrefusingEarly⟩

end Lindenmayer
