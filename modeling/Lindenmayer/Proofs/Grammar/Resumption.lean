import Lindenmayer.Grammar.Derivation
import Mathlib.Algebra.GroupWithZero.Nat

/-!
# Derivations in parts

A derivation can be interrupted after some generations and resumed from the word it has returned.
The result is that of a derivation that runs at once, with one difference: a derivation that is
resumed counts its generations from its own start. `DerivationError.resumedAfter` adds those that
went before.

A ceiling on lengths does not disturb this. The start word of the second part is not checked by it,
but it was checked as the last generation of the first part. The ceiling on the number of
generations is left out, because each part is compared with it alone.

`deriveFrom_add` splits a run in two and `word_deriveFrom_add` renumbers the second part;
`derive_add` is what follows for derivations. `Grammar.succeeds_iff` extends it to a grammar that is
advanced by any number of parts: only the sum of the parts matters.
-/

set_option autoImplicit false

namespace Lindenmayer

/-- The error of a derivation that was resumed after `earlier` generations, which are counted in. -/
def DerivationError.resumedAfter (earlier : Nat) : DerivationError → DerivationError
  | tooLong length ceiling generation => tooLong length ceiling (generation + earlier)
  | negativeCount count => negativeCount count
  | tooManyGenerations requested ceiling => tooManyGenerations requested ceiling

namespace Rules

variable {rules : Rules}

/-! ### Runs -/

/-- A run of two parts is the second part, run where the first one ends. -/
theorem deriveFrom_add (ceiling : Option Nat) (word : Word) (length done : Nat)
    (events : List Event) (first second : Nat) :
    rules.measured.deriveFrom ceiling word length done events (first + second) =
      match rules.measured.deriveFrom ceiling word length done events first with
      | (events, .ok (word, length)) =>
        rules.measured.deriveFrom ceiling word length (done + first) events second
      | (events, .error error) => (events, .error error) := by
  induction first generalizing word length done events with
  | zero => rw [Nat.zero_add]; rfl
  | succ first ih =>
    rw [Nat.succ_add, MeasuredRules.deriveFrom, MeasuredRules.deriveFrom]
    cases rules.measured.rewriteWithin ceiling word with
    | error reached => rfl
    | ok result =>
      obtain ⟨next, reached⟩ := result
      have hrest := ih next reached (done + 1) (.rewrote (done + 1) reached :: events)
      rw [Nat.add_right_comm done 1 first] at hrest
      exact hrest

/-- The word that a run returns, and its error but for the numbering, do not depend on how many
generations went before it, nor on what these have reported; nor on the length that the run is told
for its first word, because it knows the lengths of all others from the rewriting. -/
theorem word_deriveFrom_add (ceiling : Option Nat) (word : Word) (earlier count : Nat)
    (length other done : Nat) (events others : List Event) :
    (rules.measured.deriveFrom ceiling word length (earlier + done) events count).2.map Prod.fst =
      ((rules.measured.deriveFrom ceiling word other done others count).2.map Prod.fst).mapError
        (·.resumedAfter earlier) := by
  induction count generalizing word length other done events others with
  | zero => rfl
  | succ count ih =>
    rw [MeasuredRules.deriveFrom, MeasuredRules.deriveFrom]
    cases rules.measured.rewriteWithin ceiling word with
    | error reached =>
      show Except.error (DerivationError.tooLong reached _ (earlier + done + 1)) =
        .error (.tooLong reached _ (done + 1 + earlier))
      rw [Nat.add_comm (done + 1) earlier, Nat.add_assoc]
    | ok result => exact ih result.1 result.2 result.2 (done + 1) _ _

/-- Only the length of a generation can end a run early. -/
theorem exists_tooLong_of_deriveFrom {ceiling : Option Nat} {word : Word} {length done : Nat}
    {events : List Event} {count : Nat} {error : DerivationError}
    (h : (rules.measured.deriveFrom ceiling word length done events count).2 = .error error) :
    ∃ reached bound generation, error = .tooLong reached bound generation ∧
      generation ≤ done + count := by
  induction count generalizing word length done events with
  | zero => cases h
  | succ count ih =>
    rw [MeasuredRules.deriveFrom] at h
    cases hstep : rules.measured.rewriteWithin ceiling word with
    | error reached =>
      rw [hstep] at h
      cases h
      exact ⟨reached, _, done + 1, rfl, by omega⟩
    | ok result =>
      rw [hstep] at h
      obtain ⟨reached, bound, generation, hkind, hle⟩ := ih h
      exact ⟨reached, bound, generation, hkind, by omega⟩

/-! ### Derivations -/

/-- The result of a derivation without a ceiling on the number of generations is that of its run. -/
theorem result_derive (ceiling : Option UInt64) (start : Word) (count : Nat) :
    (rules.derive { length := ceiling } start count).result =
      (rules.measured.deriveFrom (ceiling.map UInt64.toNat) start start.length 0 [] count).2.map
        Prod.fst := by
  show (derive.run rules { length := ceiling } start count).result = _
  unfold derive.run
  rcases rules.measured.deriveFrom (ceiling.map UInt64.toNat) start start.length 0 [] count with
    ⟨events, error | ⟨word, length⟩⟩
  · rfl
  · rfl

/-- A derivation returns what its second part returns, started from the word of the first part. An
error of the first part is the error of the whole; one of the second part is renumbered. -/
theorem derive_add (ceiling : Option UInt64) (start : Word) (first second : Nat) :
    (rules.derive { length := ceiling } start (first + second)).result =
      (rules.derive { length := ceiling } start first).result.bind fun word ↦
        (rules.derive { length := ceiling } word second).result.mapError
          (·.resumedAfter first) := by
  rw [result_derive, result_derive, deriveFrom_add]
  rcases rules.measured.deriveFrom (ceiling.map UInt64.toNat) start start.length 0 [] first with
    ⟨events, error | ⟨word, length⟩⟩
  · rfl
  · show (rules.measured.deriveFrom _ word length (0 + first) events second).2.map Prod.fst =
      (rules.derive { length := ceiling } word second).result.mapError _
    rw [Nat.zero_add, result_derive]
    exact word_deriveFrom_add _ word first second length word.length 0 events []

theorem exists_tooLong_of_derive {ceiling : Option UInt64} {start : Word} {count : Nat}
    {error : DerivationError}
    (h : (rules.derive { length := ceiling } start count).result = .error error) :
    ∃ reached bound generation, error = .tooLong reached bound generation ∧
      generation ≤ count := by
  rw [result_derive] at h
  cases hrun :
    (rules.measured.deriveFrom (ceiling.map UInt64.toNat) start start.length 0 [] count).2 with
  | ok result => rw [hrun] at h; cases h
  | error other =>
    rw [hrun] at h
    cases h
    obtain ⟨reached, bound, generation, hkind, hle⟩ := exists_tooLong_of_deriveFrom hrun
    exact ⟨reached, bound, generation, hkind, by omega⟩

end Rules

/-! ### Grammars -/

namespace Grammar

/-- The grammar after an advance. One that fails leaves the grammar as it is. -/
def advanced (grammar : Grammar) (ceilings : Ceilings) (count : Nat) : Grammar :=
  match (grammar.advance ceilings count).result with
  | .ok next => next
  | .error _ => grammar

/-- The grammar after one advance for each part. -/
def advancedBy (grammar : Grammar) (ceilings : Ceilings) (parts : List Nat) : Grammar :=
  parts.foldl (fun grammar part ↦ grammar.advanced ceilings part) grammar

/-- Whether the advances for all parts succeed, each where the one before has led. -/
def Succeeds (grammar : Grammar) (ceilings : Ceilings) : List Nat → Prop
  | [] => True
  | part :: parts =>
    (grammar.advance ceilings part).result.isOk = true ∧
      (grammar.advanced ceilings part).Succeeds ceilings parts

variable {grammar next : Grammar} {ceilings : Ceilings} {ceiling : Option UInt64}

theorem advanced_of_ok {count : Nat} (h : (grammar.advance ceilings count).result = .ok next) :
    grammar.advanced ceilings count = next := by
  rw [advanced, h]

theorem result_advance (grammar : Grammar) (ceilings : Ceilings) (count : Nat) :
    (grammar.advance ceilings count).result =
      (grammar.rules.derive ceilings grammar.start count).result.map
        fun word ↦ { grammar with start := word } :=
  rfl

/-- An advance can be made in two parts. -/
theorem advance_add (grammar : Grammar) (ceiling : Option UInt64) (first second : Nat) :
    (grammar.advance { length := ceiling } (first + second)).result =
      (grammar.advance { length := ceiling } first).result.bind fun next ↦
        (next.advance { length := ceiling } second).result.mapError (·.resumedAfter first) := by
  rw [result_advance, result_advance, Rules.derive_add]
  cases (grammar.rules.derive { length := ceiling } grammar.start first).result with
  | error error => rfl
  | ok word =>
    show ((grammar.rules.derive { length := ceiling } word second).result.mapError _).map _ =
      ((grammar.rules.derive { length := ceiling } word second).result.map _).mapError _
    cases (grammar.rules.derive { length := ceiling } word second).result with
    | error error => rfl
    | ok last => rfl

/-- Parts that all succeed lead where one advance by their sum leads. -/
theorem advance_sum_of_succeeds {parts : List Nat}
    (h : grammar.Succeeds { length := ceiling } parts) :
    (grammar.advance { length := ceiling } parts.sum).result =
      .ok (grammar.advancedBy { length := ceiling } parts) := by
  induction parts generalizing grammar with
  | nil => rfl
  | cons part parts ih =>
    obtain ⟨hpart, hparts⟩ := h
    cases hresult : (grammar.advance { length := ceiling } part).result with
    | error error => rw [hresult] at hpart; cases hpart
    | ok next =>
      have hnext := advanced_of_ok hresult
      rw [hnext] at hparts
      rw [List.sum_cons, advance_add, hresult, advancedBy, List.foldl_cons, hnext]
      show (next.advance _ parts.sum).result.mapError _ = _
      rw [ih hparts]
      rfl

/-- If one advance succeeds, so do all parts of which it is the sum. -/
theorem succeeds_of_isOk {parts : List Nat}
    (h : (grammar.advance { length := ceiling } parts.sum).result.isOk = true) :
    grammar.Succeeds { length := ceiling } parts := by
  induction parts generalizing grammar with
  | nil => trivial
  | cons part parts ih =>
    rw [List.sum_cons, advance_add] at h
    cases hresult : (grammar.advance { length := ceiling } part).result with
    | error error => rw [hresult] at h; cases h
    | ok next =>
      rw [hresult] at h
      refine ⟨by rw [hresult]; rfl, ?_⟩
      rw [advanced_of_ok hresult]
      apply ih
      cases hrest : (next.advance { length := ceiling } parts.sum).result with
      | ok last => rfl
      | error error =>
        change ((next.advance { length := ceiling } parts.sum).result.mapError _).isOk = true at h
        rw [hrest] at h
        cases h

/-- Whether parts succeed depends on their sum alone. -/
theorem succeeds_iff (grammar : Grammar) (ceiling : Option UInt64) (parts : List Nat) :
    grammar.Succeeds { length := ceiling } parts ↔
      (grammar.advance { length := ceiling } parts.sum).result.isOk = true := by
  constructor
  · intro hparts
    rw [advance_sum_of_succeeds hparts]
    rfl
  · exact succeeds_of_isOk

/-- A derivation in parts, for all grammars and all ceilings on lengths. A derivation of
`first + second` generations returns what one of `second` generations returns that is started from
the word after the first ones; if these fail, it fails with their error, and if the second ones
fail, with the error that these report, the number of the generation increased by `first`. That
error is always a length beyond the ceiling. A grammar that is advanced by a list of parts, all of
which succeed, is the grammar advanced by their sum at once, and whether they all succeed is the
same for any other list of parts with that sum. -/
theorem advance_in_parts (grammar : Grammar) (ceiling : Option UInt64) :
    let ceilings : Ceilings := { length := ceiling }
    (∀ first second, (grammar.derive ceilings (first + second)).result =
      (grammar.derive ceilings first).result.bind fun word ↦
        (Grammar.derive { grammar with start := word } ceilings second).result.mapError
          (·.resumedAfter first)) ∧
    (∀ count error, (grammar.derive ceilings count).result = .error error →
      ∃ length bound generation, error = .tooLong length bound generation ∧
        generation ≤ count) ∧
    (∀ parts, grammar.Succeeds ceilings parts →
      (grammar.advance ceilings parts.sum).result = .ok (grammar.advancedBy ceilings parts)) ∧
    ∀ parts others : List Nat, parts.sum = others.sum →
      (grammar.Succeeds ceilings parts ↔ grammar.Succeeds ceilings others) := by
  intro ceilings
  refine ⟨?_, ?_, ?_, ?_⟩
  · intro first second
    exact grammar.rules.derive_add ceiling grammar.start first second
  · intro count error herror
    exact Rules.exists_tooLong_of_derive herror
  · intro parts hparts
    exact advance_sum_of_succeeds hparts
  · intro parts others hsum
    rw [succeeds_iff, succeeds_iff, hsum]

/-- A start word beyond the ceiling that shrinks before it grows: advanced twice by one generation,
it ends where it does by two at once, and the third generation is refused under its full number. -/
theorem advance_shrinking_start :
    let grammar : Grammar :=
      { start := "ABBBB".toList, rules := .ofList [('A', "AA".toList), ('B', [])] }
    let ceilings : Ceilings := { length := some 4 }
    grammar.Succeeds ceilings [1, 1] ∧
      grammar.Succeeds ceilings [0, 2, 0] ∧
      (grammar.advance ceilings 2).result = .ok { grammar with start := "AAAA".toList } ∧
      (grammar.derive ceilings (2 + 1)).result = .error (.tooLong 6 4 3) := by
  intro grammar ceilings
  obtain ⟨hderive, -, hparts, hsplits⟩ := advance_in_parts grammar (some 4)
  have hsucceeds : grammar.Succeeds ceilings [1, 1] := ⟨rfl, rfl, trivial⟩
  refine ⟨hsucceeds, (hsplits [0, 2, 0] [1, 1] rfl).mpr hsucceeds, hparts [1, 1] hsucceeds, ?_⟩
  rw [hderive 2 1]
  rfl

end Grammar

end Lindenmayer
