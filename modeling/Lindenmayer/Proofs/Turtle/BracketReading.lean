import Lindenmayer.Grammar.Classic
import Lindenmayer.Proofs.Grammar.Brackets
import Lindenmayer.Proofs.Turtle.Reading

/-!
# Reading words with brackets

An alphabet reads brackets when it pushes at `[`, pops at `]` and has no other stack command. The
stack of the turtle then follows the nesting of the word: with `height` brackets open, the saved
snapshots are `height` new ones over those that were there before the word.

A word that closes its brackets never pops too far, so the only way to fail is a full stack. Whether
it is met depends on the deepest bracket alone (`readFrom_of_closes`): with the live snapshot
counted in, there must be room for one more snapshot than brackets are open.
`balanced_and_read_generation` joins this with the balance of all generations.
-/

set_option autoImplicit false

namespace Lindenmayer

namespace Alphabet

/-- An alphabet that pushes at an opening bracket, pops at a closing one and has no other stack
command. -/
structure ReadsBrackets (alphabet : Alphabet) : Prop where
  opening : alphabet.commands.get? '[' = some .push
  closing : alphabet.commands.get? ']' = some .pop
  other : ∀ symbol command, symbol ≠ '[' → symbol ≠ ']' →
    alphabet.commands.get? symbol = some command → command ≠ .push ∧ command ≠ .pop

/-- An alphabet never refuses a symbol of a word: it has a command for each, or passes over those
without. -/
def Covers (alphabet : Alphabet) (word : Word) : Prop :=
  alphabet.settings.unbound = .skip ∨
    ∀ symbol ∈ word, ∃ command, alphabet.commands.get? symbol = some command

/-- An alphabet reads brackets if its entries say so. -/
theorem ReadsBrackets.of_entries {alphabet : Alphabet}
    (hopening : alphabet.commands.get? '[' = some .push)
    (hclosing : alphabet.commands.get? ']' = some .pop)
    (hother : ∀ entry ∈ alphabet.commands.entries, entry.1 ≠ '[' → entry.1 ≠ ']' →
      entry.2 ≠ .push ∧ entry.2 ≠ .pop) : alphabet.ReadsBrackets where
  opening := hopening
  closing := hclosing
  other _ _ hneOpening hneClosing hcommand :=
    hother _ (SymbolTable.get?_eq_some_iff.mp hcommand) hneOpening hneClosing

theorem Covers.of_cons {alphabet : Alphabet} {symbol : Char} {word : Word}
    (h : alphabet.Covers (symbol :: word)) : alphabet.Covers word :=
  h.imp_right fun hbound other hother ↦ hbound other (List.mem_cons_of_mem symbol hother)

namespace ReadsBrackets

variable {σ η : Type} [Canvas σ η] {alphabet : Alphabet}

/-! ### One symbol -/

/-- An opening bracket saves the live snapshot if there is room for it. -/
theorem readSymbol_opening_of_lt (h : alphabet.ReadsBrackets) (progress : Progress σ η)
    (hroom : progress.plotter.turtle.depth < progress.plotter.turtle.setup.maxDepth.toNat) :
    ∃ next, alphabet.readSymbol progress '[' = (next, none) ∧
      next.plotter.turtle =
        { progress.plotter.turtle with
          saved := progress.plotter.turtle.live :: progress.plotter.turtle.saved } := by
  rw [readSymbol_of_bound h.opening]
  have hcarryOut := progress.plotter.turtle.carryOut_push
  rw [if_neg (Nat.not_le_of_lt hroom)] at hcarryOut
  exact obey_of_ok hcarryOut

/-- An opening bracket ends the reading if the stack is full. -/
theorem readSymbol_opening_of_le (h : alphabet.ReadsBrackets) (progress : Progress σ η)
    (hfull : progress.plotter.turtle.setup.maxDepth.toNat ≤ progress.plotter.turtle.depth) :
    alphabet.readSymbol progress '[' =
      (progress, some (.stack (.overflow progress.plotter.turtle.setup.maxDepth.toNat))) := by
  rw [readSymbol_of_bound h.opening]
  refine obey_of_error ?_
  rw [Turtle.carryOut_push, if_pos hfull]

/-- A closing bracket returns to the snapshot saved last. -/
theorem readSymbol_closing (h : alphabet.ReadsBrackets) (progress : Progress σ η) {live : Snapshot}
    {saved : List Snapshot} (hsaved : progress.plotter.turtle.saved = live :: saved) :
    ∃ next, alphabet.readSymbol progress ']' = (next, none) ∧
      next.plotter.turtle = { progress.plotter.turtle with live := live, saved := saved } := by
  rw [readSymbol_of_bound h.closing]
  exact obey_of_ok (Turtle.carryOut_pop hsaved)

/-- Any other symbol that is covered leaves the stack and the setup alone. -/
theorem readSymbol_other (h : alphabet.ReadsBrackets) {symbol : Char} {word : Word}
    (hcovers : alphabet.Covers (symbol :: word)) (hopening : symbol ≠ '[')
    (hclosing : symbol ≠ ']') (progress : Progress σ η) :
    ∃ next, alphabet.readSymbol progress symbol = (next, none) ∧
      next.plotter.turtle.saved = progress.plotter.turtle.saved ∧
      next.plotter.turtle.setup = progress.plotter.turtle.setup := by
  cases hcommand : alphabet.commands.get? symbol with
  | none =>
    have hskip : alphabet.settings.unbound = .skip := by
      refine hcovers.resolve_right fun hbound ↦ ?_
      obtain ⟨command, hsome⟩ := hbound symbol List.mem_cons_self
      rw [hcommand] at hsome
      cases hsome
    exact ⟨_, readSymbol_of_skip hcommand hskip progress, rfl, rfl⟩
  | some command =>
    obtain ⟨hpush, hpop⟩ := h.other symbol command hopening hclosing hcommand
    have hstack : command.isStack = false := by
      cases command with
      | push => exact absurd rfl hpush
      | pop => exact absurd rfl hpop
      | forward _ | turn _ | penDown | penUp | ignore => rfl
    obtain ⟨outline, hcarryOut⟩ := progress.plotter.turtle.carryOut_of_not_isStack hstack
    obtain ⟨next, hnext, hturtle⟩ := obey_of_ok hcarryOut
    refine ⟨next, by rw [readSymbol_of_bound hcommand, hnext], ?_, ?_⟩ <;> rw [hturtle]

/-! ### A whole word -/

/-- Whether a stack with `base` snapshots saved has room for `deepest` more, the live snapshot
counted in. No room is needed for nothing. -/
def HasRoom (setup : Setup) (base : List Snapshot) (deepest : Nat) : Prop :=
  deepest = 0 ∨ base.length + 1 + deepest ≤ setup.maxDepth.toNat

/-- Reading a word that closes its brackets. If there is room for its deepest bracket, it is read to
its end and the snapshots below its open brackets are left; otherwise the reading ends with a full
stack. Assumes: with `height` brackets open, `height` snapshots are saved over `base`. -/
theorem readFrom_of_closes (h : alphabet.ReadsBrackets) {height : Nat} {word : Word}
    (hcloses : Closes height word) (hcovers : alphabet.Covers word) (progress : Progress σ η)
    {setup : Setup} (hsetup : progress.plotter.turtle.setup = setup) {base : List Snapshot}
    (above : List Snapshot) (hsaved : progress.plotter.turtle.saved = above ++ base)
    (habove : above.length = height) :
    ∃ last,
      HasRoom setup base (deepestFrom height word) ∧
          alphabet.readFrom word progress = (last, none) ∧ last.plotter.turtle.saved = base ∨
        ¬ HasRoom setup base (deepestFrom height word) ∧
          alphabet.readFrom word progress =
            (last, some (.stack (.overflow setup.maxDepth.toNat))) := by
  induction hcloses generalizing progress above with
  | nil =>
    obtain rfl : above = [] := List.eq_nil_of_length_eq_zero habove
    exact ⟨progress, .inl ⟨.inl rfl, rfl, hsaved⟩⟩
  | @opening height word _ ih =>
    have hdepth : progress.plotter.turtle.depth = base.length + height + 1 := by
      rw [Turtle.depth, hsaved, List.length_append, habove, Nat.add_comm height]
    by_cases hfull : setup.maxDepth.toNat ≤ progress.plotter.turtle.depth
    · have hstop := h.readSymbol_opening_of_le progress (by rwa [hsetup])
      rw [hsetup] at hstop
      refine ⟨progress, .inr ⟨?_, readFrom_cons_of_some word hstop⟩⟩
      unfold HasRoom
      rw [deepestFrom_opening]
      omega
    · obtain ⟨next, hnext, hturtle⟩ :=
        h.readSymbol_opening_of_lt progress (by rw [hsetup]; omega)
      have hroom : HasRoom setup base (deepestFrom height ('[' :: word)) ↔
          HasRoom setup base (deepestFrom (height + 1) word) := by
        unfold HasRoom
        rw [deepestFrom_opening]
        omega
      rw [readFrom_cons_of_none word hnext, hroom]
      refine ih hcovers.of_cons next ?_ (progress.plotter.turtle.live :: above) ?_ ?_
      · rw [hturtle, hsetup]
      · rw [hturtle, hsaved, List.cons_append]
      · rw [List.length_cons, habove]
  | @closing height word _ ih =>
    obtain ⟨live, lower, rfl⟩ := List.exists_cons_of_length_eq_add_one habove
    obtain ⟨next, hnext, hturtle⟩ := h.readSymbol_closing progress hsaved
    rw [readFrom_cons_of_none word hnext, deepestFrom_closing]
    refine ih hcovers.of_cons next ?_ lower ?_ (Nat.succ.inj habove)
    · rw [hturtle, hsetup]
    · rw [hturtle, List.append_eq]
  | @other height symbol word hopening hclosing _ ih =>
    obtain ⟨next, hnext, hsame, hsameSetup⟩ :=
      h.readSymbol_other hcovers hopening hclosing progress
    rw [readFrom_cons_of_none word hnext, deepestFrom_other height hopening hclosing]
    exact ih hcovers.of_cons next (hsameSetup.trans hsetup) above (hsame.trans hsaved) habove

/-- Reading a balanced word is refused only for want of room for its deepest bracket, and otherwise
leaves the stack as it was. -/
theorem read_of_balanced (h : alphabet.ReadsBrackets) {word : Word} (hbalanced : Balanced word)
    (hcovers : alphabet.Covers word) (plotter : Plotter σ η) :
    (nestingDepth word = 0 ∨
          plotter.turtle.depth + nestingDepth word ≤ plotter.turtle.setup.maxDepth.toNat) ∧
        (alphabet.read word plotter).failure = none ∧
        (alphabet.read word plotter).plotter.turtle.saved = plotter.turtle.saved ∨
      ¬ (nestingDepth word = 0 ∨
          plotter.turtle.depth + nestingDepth word ≤ plotter.turtle.setup.maxDepth.toNat) ∧
        (alphabet.read word plotter).failure =
          some (.stack (.overflow plotter.turtle.setup.maxDepth.toNat)) := by
  rw [nestingDepth_eq_deepestFrom hbalanced]
  have hcloses : Closes 0 word := balanced_iff_closes.mp hbalanced
  rcases h.readFrom_of_closes hcloses hcovers { plotter } rfl [] rfl rfl with
      ⟨last, ⟨hroom, hread, hsaved⟩ | ⟨hroom, hread⟩⟩
  · obtain ⟨hfailure, hplotter⟩ := read_of_readFrom hread
    exact .inl ⟨hroom, hfailure, by rw [hplotter, hsaved]⟩
  · exact .inr ⟨hroom, (read_of_readFrom hread).1⟩

end ReadsBrackets

end Alphabet

/-- Assumes: a balanced start word, and rules that leave both brackets alone and replace other
symbols by balanced words. Every generation is balanced. An alphabet that pushes and pops at
brackets only and covers the generation reads it, from any plotter, exactly if it opens no bracket
or there is room on the stack for its nesting depth; then the saved snapshots and the depth are what
they were before. Otherwise the reading is ended by a full stack, and never by an empty stack or an
unbound symbol. -/
theorem balanced_and_read_generation {rules : Rules} {start : Word} (hrules : rules.KeepsBrackets)
    (hstart : Balanced start) (count : Nat) :
    Balanced (rules.generation start count) ∧
      ∀ {σ η : Type} [Canvas σ η] (alphabet : Alphabet) (plotter : Plotter σ η),
        alphabet.ReadsBrackets → alphabet.Covers (rules.generation start count) →
        ((alphabet.read (rules.generation start count) plotter).failure = none ↔
          nestingDepth (rules.generation start count) = 0 ∨
            plotter.turtle.depth + nestingDepth (rules.generation start count) ≤
              plotter.turtle.setup.maxDepth.toNat) ∧
        ((alphabet.read (rules.generation start count) plotter).failure ≠ none →
          (alphabet.read (rules.generation start count) plotter).failure =
            some (.stack (.overflow plotter.turtle.setup.maxDepth.toNat))) ∧
        ((alphabet.read (rules.generation start count) plotter).failure = none →
          (alphabet.read (rules.generation start count) plotter).plotter.turtle.saved =
              plotter.turtle.saved ∧
            (alphabet.read (rules.generation start count) plotter).plotter.turtle.depth =
              plotter.turtle.depth) := by
  have hbalanced := hrules.balanced_generation hstart count
  refine ⟨hbalanced, fun {σ η} _ alphabet plotter hbrackets hcovers ↦ ?_⟩
  rcases hbrackets.read_of_balanced hbalanced hcovers plotter with
      ⟨hroom, hfailure, hsaved⟩ | ⟨hroom, hfailure⟩
  · refine ⟨by simp only [hfailure, hroom], fun hne ↦ absurd hfailure hne, fun _ ↦ ⟨hsaved, ?_⟩⟩
    rw [Turtle.depth, hsaved, Turtle.depth]
  · refine ⟨by simp only [hfailure, hroom, reduceCtorEq], fun _ ↦ hfailure, fun hnone ↦ ?_⟩
    rw [hfailure] at hnone
    cases hnone

/-- The second generation of the tree nests two deep: read by the customary alphabet, it needs a
stack of three snapshots, the live one included, and fails on a stack of two. -/
theorem pythagorasTree_needs_room :
    Classic.pythagorasTree.grammar.rules.KeepsBrackets ∧ Balanced ['0'] ∧
      Balanced (Classic.pythagorasTree.grammar.rules.generation ['0'] 2) ∧
      ((({ settings := { unbound := .skip } } : Alphabet).withStandard.read
        (Classic.pythagorasTree.grammar.rules.generation ['0'] 2)
        { turtle := .initial "tree" .poly { maxDepth := 3 }
          canvas := ({} : Sketchbook) }).failure = none) ∧
      ((({ settings := { unbound := .skip } } : Alphabet).withStandard.read
        (Classic.pythagorasTree.grammar.rules.generation ['0'] 2)
        { turtle := .initial "tree" .poly { maxDepth := 2 }
          canvas := ({} : Sketchbook) }).failure = some (.stack (.overflow 2))) := by
  have hstart : Balanced ['0'] := by decide
  obtain ⟨hbalanced, hread⟩ :=
    balanced_and_read_generation Classic.keepsBrackets_pythagorasTree hstart 2
  have hbrackets : ({ settings := { unbound := .skip } } : Alphabet).withStandard.ReadsBrackets :=
    .of_entries rfl rfl (by decide)
  refine ⟨Classic.keepsBrackets_pythagorasTree, hstart, hbalanced, ?_, ?_⟩
  · exact (hread _ _ hbrackets (.inl rfl)).1.mpr (.inr (by decide))
  · refine (hread _ _ hbrackets (.inl rfl)).2.1 fun hnone ↦ ?_
    exact absurd ((hread _ _ hbrackets (.inl rfl)).1.mp hnone) (by decide)

end Lindenmayer
