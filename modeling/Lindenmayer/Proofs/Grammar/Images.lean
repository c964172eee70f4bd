import Lindenmayer.Proofs.Grammar.BoundedDerivation

/-!
# Growth depends on images only

Rules are a table, but a derivation never sees the table: of every symbol that it meets it asks for
the image, and the images of symbols that it does not meet do not matter. Two tables that agree on
the images of the symbols that occur have derivations with the same result and the same events.

`Rules.Agree` says that they do so for a number of generations of one start word.
`Rules.rewriteWithin_congr` is one generation, `Rules.deriveFrom_congr` a run and
`Rules.derive_congr` a whole derivation. `Grammar.derive_depends_on_images` adds what follows for
tables with their entries in another order, for rules that are entered in another order, for the
rules of symbols that never occur, and for rules that replace a symbol by itself.
-/

set_option autoImplicit false

namespace Lindenmayer

/-! ### Derivations -/

namespace Rules

variable {rules other : Rules}

theorem image_congr {symbol : Char} (h : rules.get? symbol = other.get? symbol) :
    rules.image symbol = other.image symbol := by
  rw [image, image, h]

/-- Two tables have the same images for all symbols that occur in `count` generations of a start
word, the start word included and the last generation not. -/
def Agree (rules other : Rules) (start : Word) (count : Nat) : Prop :=
  ∀ generation < count, ∀ symbol ∈ rules.generation start generation,
    rules.image symbol = other.image symbol

/-- Two tables agree on the start word before they agree on what follows. -/
theorem agree_succ_iff {start : Word} {count : Nat} :
    rules.Agree other start (count + 1) ↔
      (∀ symbol ∈ start, rules.image symbol = other.image symbol) ∧
        rules.Agree other (rules.rewrite start) count := by
  constructor
  · intro h
    refine ⟨h 0 (Nat.succ_pos count), fun generation hlt ↦ ?_⟩
    rw [← generation_succ_start]
    exact h (generation + 1) (Nat.succ_lt_succ hlt)
  · rintro ⟨hstart, hrest⟩ generation hlt
    cases generation with
    | zero => exact hstart
    | succ generation =>
      rw [generation_succ_start]
      exact hrest generation (Nat.lt_of_succ_lt_succ hlt)

theorem rewriteFrom_congr {word : Word}
    (h : ∀ symbol ∈ word, rules.image symbol = other.image symbol) (ceiling : Option Nat)
    (written : Word) (length : Nat) :
    rules.measured.rewriteFrom ceiling word written length =
      other.measured.rewriteFrom ceiling word written length := by
  induction word generalizing written length with
  | nil => rfl
  | cons symbol word ih =>
    obtain ⟨hsymbol, hword⟩ := List.forall_mem_cons.mp h
    rw [rewriteFrom_cons, rewriteFrom_cons, hsymbol]
    split
    · rfl
    · exact ih hword _ _

/-- One generation depends on the images of the symbols of its word. -/
theorem rewriteWithin_congr {word : Word}
    (h : ∀ symbol ∈ word, rules.image symbol = other.image symbol) (ceiling : Option Nat) :
    rules.measured.rewriteWithin ceiling word = other.measured.rewriteWithin ceiling word :=
  rewriteFrom_congr h ceiling [] 0

/-- A generation that is returned is the whole generation. -/
theorem eq_rewrite_of_rewriteWithin {ceiling : Option Nat} {word next : Word} {length : Nat}
    (h : rules.measured.rewriteWithin ceiling word = .ok (next, length)) :
    next = rules.rewrite word := by
  by_cases hfits : ∀ bound ∈ ceiling, (rules.rewrite word).length ≤ bound
  · rw [rewriteWithin_of_le hfits] at h
    cases h
    rfl
  · simp only [not_forall, Nat.not_le] at hfits
    obtain ⟨bound, rfl, hbeyond⟩ := hfits
    obtain ⟨reached, -, herror⟩ := rewriteWithin_of_lt hbeyond
    rw [herror] at h
    cases h

/-- A run depends on the images of the symbols of its generations but the last. -/
theorem deriveFrom_congr {word : Word} {remaining : Nat} (h : rules.Agree other word remaining)
    (ceiling : Option Nat) (length done : Nat) (events : List Event) :
    rules.measured.deriveFrom ceiling word length done events remaining =
      other.measured.deriveFrom ceiling word length done events remaining := by
  induction remaining generalizing word length done events with
  | zero => rfl
  | succ remaining ih =>
    obtain ⟨hword, hrest⟩ := agree_succ_iff.mp h
    rw [MeasuredRules.deriveFrom, MeasuredRules.deriveFrom, ← rewriteWithin_congr hword]
    cases hstep : rules.measured.rewriteWithin ceiling word with
    | error reached => rfl
    | ok result =>
      obtain ⟨next, reached⟩ := result
      rw [← eq_rewrite_of_rewriteWithin hstep] at hrest
      exact ih hrest reached (done + 1) _

/-- A derivation depends on the images of the symbols of its generations but the last. -/
theorem derive_congr {start : Word} {count : Nat} (h : rules.Agree other start count)
    (ceilings : Ceilings) :
    rules.derive ceilings start count = other.derive ceilings start count := by
  have hrun : derive.run rules ceilings start count = derive.run other ceilings start count := by
    rw [derive.run, derive.run, deriveFrom_congr h]
  rw [derive, derive, hrun]

end Rules

/-! ### Grammars -/

namespace Grammar

/-- The grammar in which rules are entered one after the other; of two rules for one symbol the
later counts. -/
def withRules (grammar : Grammar) (pairs : List (Char × Word)) : Grammar :=
  pairs.foldl (fun grammar pair ↦ grammar.withRule pair.1 pair.2) grammar

/-- After rules are entered, a symbol has the last one that was entered for it, and the one it had
before if there was none. -/
theorem get?_withRules (grammar : Grammar) (pairs : List (Char × Word)) (symbol : Char) :
    (grammar.withRules pairs).rules.get? symbol =
      (pairs.reverse.lookup symbol).or (grammar.rules.get? symbol) := by
  induction pairs generalizing grammar with
  | nil => rfl
  | cons pair pairs ih =>
    have hlast : [pair].lookup symbol = if symbol = pair.1 then some pair.2 else none :=
      SymbolTable.lookup_cons_eq_ite symbol pair []
    rw [withRules, List.foldl_cons, ← withRules, ih, withRule, SymbolTable.get?_insert,
      List.reverse_cons, List.lookup_append, Option.or_assoc, hlast]
    split <;> rfl

theorem start_withRules (grammar : Grammar) (pairs : List (Char × Word)) :
    (grammar.withRules pairs).start = grammar.start := by
  induction pairs generalizing grammar with
  | nil => rfl
  | cons pair pairs ih => exact ih (grammar.withRule pair.1 pair.2)

/-- A derivation depends on the rules only through the images of the symbols that occur before its
last generation. It has the same result, whether a word or an error, and leaves the same events

* under any rules that give these symbols the same images;
* in whatever order the entries of the table stand;
* in whatever order rules are entered, as long as the last one for each symbol is the same;
* when the rule of a symbol that does not occur is added, changed or dropped;
* when a symbol without a rule is given the rule to replace it by itself. -/
theorem derive_depends_on_images (grammar : Grammar) (ceilings : Ceilings) (count : Nat) :
    (∀ rules : Rules,
      (∀ generation < count, ∀ symbol ∈ grammar.rules.generation grammar.start generation,
        grammar.rules.image symbol = rules.image symbol) →
      Grammar.derive { grammar with rules := rules } ceilings count =
        grammar.derive ceilings count) ∧
    (∀ rules : Rules, rules.entries.Perm grammar.rules.entries →
      Grammar.derive { grammar with rules := rules } ceilings count =
        grammar.derive ceilings count) ∧
    (∀ first second : List (Char × Word),
      (∀ symbol, first.reverse.lookup symbol = second.reverse.lookup symbol) →
      (grammar.withRules first).derive ceilings count =
        (grammar.withRules second).derive ceilings count) ∧
    (∀ symbol,
      (∀ generation < count, symbol ∉ grammar.rules.generation grammar.start generation) →
      (∀ replacement,
        (grammar.withRule symbol replacement).derive ceilings count =
          grammar.derive ceilings count) ∧
        (grammar.withoutRule symbol).derive ceilings count = grammar.derive ceilings count) ∧
    ∀ symbol, grammar.rules.get? symbol = none →
      (grammar.withRule symbol [symbol]).derive ceilings count =
        grammar.derive ceilings count := by
  refine ⟨fun rules hagree ↦ ?_, fun rules hperm ↦ ?_, fun first second hlast ↦ ?_,
    fun symbol habsent ↦ ⟨fun replacement ↦ ?_, ?_⟩, fun symbol hnone ↦ ?_⟩
  · exact (Rules.derive_congr hagree ceilings).symm
  · refine Rules.derive_congr (fun _ _ symbol _ ↦ ?_) ceilings
    exact Rules.image_congr (SymbolTable.get?_eq_of_perm hperm symbol)
  · rw [derive, derive, start_withRules, start_withRules]
    refine Rules.derive_congr (fun _ _ symbol _ ↦ Rules.image_congr ?_) ceilings
    rw [get?_withRules, get?_withRules, hlast]
  · refine (Rules.derive_congr (fun generation hlt other hother ↦ ?_) ceilings).symm
    have hne : other ≠ symbol := fun heq ↦ habsent generation hlt (heq ▸ hother)
    apply Rules.image_congr
    rw [withRule, SymbolTable.get?_insert, if_neg hne]
  · refine (Rules.derive_congr (fun generation hlt other hother ↦ ?_) ceilings).symm
    have hne : other ≠ symbol := fun heq ↦ habsent generation hlt (heq ▸ hother)
    apply Rules.image_congr
    rw [withoutRule, SymbolTable.get?_erase, if_neg hne]
  · refine (Rules.derive_congr (fun _ _ other _ ↦ ?_) ceilings).symm
    rw [withRule, Rules.image, Rules.image, SymbolTable.get?_insert]
    by_cases hother : other = symbol
    · rw [if_pos hother, hother, hnone]
      rfl
    · rw [if_neg hother]

/-- A word with a letter that grows, one without a rule and one that is erased, under a ceiling that
its second generation crosses. Whatever other table, order or superfluous rule is chosen, the same
generation is given up at the same length. -/
theorem derive_with_superfluous_rules :
    let grammar : Grammar :=
      { start := "aéb".toList, rules := .ofList [('a', "aé".toList), ('b', [])] }
    let ceilings : Ceilings := { length := some 3 }
    let outcome : Logged (Except DerivationError Word) :=
      ⟨.error (.tooLong 4 3 2), [.rewrote 1 3]⟩
    let larger : Rules := .ofList [('é', ['é']), ('z', []), ('b', []), ('a', "aé".toList)]
    let turned : Rules := .ofList [('b', []), ('a', "aé".toList)]
    Grammar.derive { grammar with rules := larger } ceilings 4 = outcome ∧
      Grammar.derive { grammar with rules := turned } ceilings 4 = outcome ∧
      (grammar.withRules [('z', ['a']), ('b', ['b']), ('b', [])]).derive ceilings 4 =
        (grammar.withRules [('b', []), ('z', ['a'])]).derive ceilings 4 ∧
      (grammar.withRule 'z' "ab".toList).derive ceilings 4 = outcome ∧
      (grammar.withoutRule 'z').derive ceilings 4 = outcome ∧
      (grammar.withRule 'é' ['é']).derive ceilings 4 = outcome := by
  intro grammar ceilings outcome larger turned
  have houtcome : grammar.derive ceilings 4 = outcome := rfl
  obtain ⟨himages, hentries, horder, habsent, hitself⟩ :=
    derive_depends_on_images grammar ceilings 4
  have hz : ∀ generation < 4, 'z' ∉ grammar.rules.generation grammar.start generation := by decide
  have hlarger (symbol : Char) (hne : symbol ≠ 'z') :
      grammar.rules.image symbol = larger.image symbol := by
    by_cases ha : symbol = 'a'
    · rw [ha]
      rfl
    by_cases hb : symbol = 'b'
    · rw [hb]
      rfl
    by_cases hé : symbol = 'é'
    · rw [hé]
      rfl
    show ([('a', "aé".toList), ('b', [])].lookup symbol).getD [symbol] =
      ([('é', ['é']), ('z', []), ('b', []), ('a', "aé".toList)].lookup symbol).getD [symbol]
    simp only [SymbolTable.lookup_cons_eq_ite, if_neg ha, if_neg hb, if_neg hé, if_neg hne]
  rw [← houtcome]
  refine ⟨himages larger fun generation hlt symbol hsymbol ↦ hlarger symbol ?_,
    hentries turned (by decide), horder _ _ fun symbol ↦ ?_, (habsent 'z' hz).1 _,
    (habsent 'z' hz).2, hitself 'é' (by decide)⟩
  · rintro rfl
    exact hz generation hlt hsymbol
  · show [('b', []), ('b', ['b']), ('z', ['a'])].lookup symbol =
      [('z', ['a']), ('b', [])].lookup symbol
    simp only [SymbolTable.lookup_cons_eq_ite]
    split
    · rename_i hsymbol
      rw [hsymbol]
      rfl
    · rfl

end Grammar

end Lindenmayer
