import Lindenmayer.Proofs.Grammar.BoundedDerivation
import Mathlib.Algebra.BigOperators.Ring.List
import Mathlib.Algebra.Ring.Nat
import Mathlib.Data.List.Perm.Basic

/-!
# Linearity of growth

Each symbol of a word grows by itself. A word of two pieces therefore grows piece by piece
(`Rules.generation_append`), and a word grows into the same symbols whatever the order of its own
(`Rules.generation_perm`).

What is counted about a word is a `tally`: every symbol has a weight, and the weights add up.
`Rules.tally_rewrite` says that the tally of the next generation is a tally of the present one, in
which a symbol weighs as much as its image. `Rules.count_rewrite` is the case of the number of times
that a symbol occurs.

The course of a derivation depends on the lengths of the generations alone, apart from the length at
which a generation that is too long is given up; that one also depends on the order of the symbols.
`Rules.derive_alike_of_length_eq` says so, and `Rules.derive_is_linear` puts everything together.
-/

set_option autoImplicit false

namespace Lindenmayer

/-! ### Tallies -/

/-- The weights of the symbols of a word, added up. -/
def tally (weight : Char → Nat) (word : Word) : Nat := (word.map weight).sum

section Tally

variable (weight other : Char → Nat)

@[simp] theorem tally_cons (symbol : Char) (word : Word) :
    tally weight (symbol :: word) = weight symbol + tally weight word :=
  List.sum_cons

@[simp] theorem tally_append (first second : Word) :
    tally weight (first ++ second) = tally weight first + tally weight second := by
  rw [tally, List.map_append, List.sum_append, tally, tally]

theorem tally_congr {weight other : Char → Nat} {word : Word}
    (h : ∀ symbol ∈ word, weight symbol = other symbol) : tally weight word = tally other word := by
  rw [tally, List.map_congr_left h, tally]

theorem tally_add (word : Word) :
    tally (fun symbol ↦ weight symbol + other symbol) word = tally weight word + tally other word :=
  List.sum_map_add

theorem tally_mul (factor : Nat) (word : Word) :
    tally (fun symbol ↦ factor * weight symbol) word = factor * tally weight word :=
  List.sum_map_mul_left word weight factor

end Tally

namespace Rules

variable {rules : Rules}

/-! ### One generation -/

/-- The tally of the next generation is that of the present one, each symbol with the tally of its
image as its weight. -/
theorem tally_rewrite (rules : Rules) (weight : Char → Nat) (word : Word) :
    tally weight (rules.rewrite word) =
      tally (fun symbol ↦ tally weight (rules.image symbol)) word := by
  induction word with
  | nil => rfl
  | cons symbol word ih => rw [rewrite_cons, tally_append, tally_cons, ih]

/-- A symbol occurs in the next generation as often as it does in all images of the symbols of the
present one together. -/
theorem count_rewrite (rules : Rules) (symbol : Char) (word : Word) :
    (rules.rewrite word).count symbol =
      (word.map fun other ↦ (rules.image other).count symbol).sum :=
  List.count_flatMap

/-- The symbols of the next generation do not depend on the order of those of the present one. -/
theorem rewrite_perm (rules : Rules) {first second : Word} (h : first.Perm second) :
    (rules.rewrite first).Perm (rules.rewrite second) :=
  h.flatMap_right rules.image

/-! ### All generations -/

theorem generation_append (rules : Rules) (first second : Word) (count : Nat) :
    rules.generation (first ++ second) count =
      rules.generation first count ++ rules.generation second count := by
  induction count with
  | zero => rfl
  | succ count ih => simp only [generation_succ, ih, rewrite_append]

/-- A generation has no other symbols than its start word, if the images bring none in. -/
theorem generation_subset {rules : Rules} {alphabet : List Char} {start : Word}
    (hstart : start ⊆ alphabet) (himage : ∀ symbol ∈ alphabet, rules.image symbol ⊆ alphabet)
    (count : Nat) : rules.generation start count ⊆ alphabet := by
  induction count with
  | zero => exact hstart
  | succ count ih =>
    intro symbol hsymbol
    obtain ⟨other, hother, hmem⟩ := List.mem_flatMap.mp hsymbol
    exact himage other (ih hother) hmem

/-- The tally of the next generation, for weights of which it is known what they make of the images
of the symbols that occur. -/
theorem tally_generation_succ {rules : Rules} {alphabet : List Char} {start : Word} {count : Nat}
    {weight next : Char → Nat} (hword : rules.generation start count ⊆ alphabet)
    (himage : ∀ symbol ∈ alphabet, tally weight (rules.image symbol) = next symbol) :
    tally weight (rules.generation start (count + 1)) =
      tally next (rules.generation start count) := by
  rw [generation_succ, tally_rewrite]
  exact tally_congr fun symbol hsymbol ↦ himage symbol (hword hsymbol)

theorem generation_perm (rules : Rules) {first second : Word} (h : first.Perm second)
    (count : Nat) : (rules.generation first count).Perm (rules.generation second count) := by
  induction count with
  | zero => exact h
  | succ count ih => exact rules.rewrite_perm ih

end Rules

/-! ### Derivations -/

/-- Two errors of one kind that differ at most in the length at which a generation was given up. -/
inductive DerivationError.Alike : DerivationError → DerivationError → Prop
  | negativeCount (count : Int) : Alike (.negativeCount count) (.negativeCount count)
  | tooManyGenerations (requested ceiling : Nat) :
    Alike (.tooManyGenerations requested ceiling) (.tooManyGenerations requested ceiling)
  | tooLong (length other ceiling generation : Nat) :
    Alike (.tooLong length ceiling generation) (.tooLong other ceiling generation)

namespace Rules

variable {rules : Rules} {ceilings : Ceilings} {first second : Word}

theorem AllFit.of_length_eq {count : Nat} (h : rules.AllFit ceilings first count)
    (hlength : ∀ generation,
      (rules.generation first generation).length = (rules.generation second generation).length) :
    rules.AllFit ceilings second count := by
  intro bound hbound generation hpositive hle
  rw [← hlength]
  exact h bound hbound generation hpositive hle

theorem FirstBeyond.of_length_eq {bound generation : Nat}
    (h : rules.FirstBeyond bound first generation)
    (hlength : ∀ generation,
      (rules.generation first generation).length = (rules.generation second generation).length) :
    rules.FirstBeyond bound second generation := by
  obtain ⟨hpositive, hbeyond, hfits⟩ := h
  refine ⟨hpositive, by rwa [← hlength], fun earlier hearlier hlt ↦ ?_⟩
  rw [← hlength]
  exact hfits earlier hearlier hlt

/-- Two derivations whose generations have the same lengths both return their last generation, or
both fail, for the same reason and in the same generation, though maybe at another length. -/
theorem derive_alike_of_length_eq (rules : Rules) (ceilings : Ceilings) (count : Nat)
    (hlength : ∀ generation,
      (rules.generation first generation).length = (rules.generation second generation).length) :
    (rules.derive ceilings first count).result = .ok (rules.generation first count) ∧
        (rules.derive ceilings second count).result = .ok (rules.generation second count) ∨
      ∃ error other, (rules.derive ceilings first count).result = .error error ∧
        (rules.derive ceilings second count).result = .error other ∧ error.Alike other := by
  rcases rules.derive_cases ceilings first count with
      ⟨ceiling, hceiling, hlt, hfirst⟩ | ⟨haccepted, hfits, hfirst⟩ |
      ⟨haccepted, bound, earlier, length, hbound, hlt, hbeyond, hcrosses, hfirst⟩
  · rw [hfirst, derive_of_refuses hceiling hlt]
    exact .inr ⟨_, _, rfl, rfl, .tooManyGenerations count ceiling.toNat⟩
  · rw [hfirst, derive_of_allFit haccepted (hfits.of_length_eq hlength)]
    exact .inl ⟨rfl, rfl⟩
  · have hother := hbeyond.of_length_eq hlength
    obtain ⟨otherLength, hotherCrosses, -⟩ := rewriteWithin_of_lt hother.2.1
    rw [hfirst, derive_of_firstBeyond haccepted hbound hlt hother hotherCrosses]
    exact .inr ⟨_, _, rfl, rfl, .tooLong length otherLength bound.toNat (earlier + 1)⟩

/-- A derivation without ceilings returns its last generation. -/
theorem result_derive_unbounded (rules : Rules) (start : Word) (count : Nat) :
    (rules.derive {} start count).result = .ok (rules.generation start count) := by
  refine result_eq_ok_iff.mpr ⟨?_, ?_, rfl⟩
  · rintro ⟨ceiling, hceiling, -⟩
    cases hceiling
  · intro bound hbound
    cases hbound

/-- A derivation with a ceiling on lengths succeeds exactly if no generation is beyond it. -/
theorem isOk_derive_iff (rules : Rules) (ceiling : UInt64) (start : Word) (count : Nat) :
    (rules.derive { length := some ceiling } start count).result.isOk = true ↔
      ∀ generation, 1 ≤ generation → generation ≤ count →
        (rules.generation start generation).length ≤ ceiling.toNat := by
  have haccepted : ¬ ({ length := some ceiling } : Ceilings).Refuses count := by
    rintro ⟨bound, hbound, -⟩
    cases hbound
  constructor
  · intro hok
    cases hresult : (rules.derive { length := some ceiling } start count).result with
    | error error =>
      rw [hresult] at hok
      cases hok
    | ok word => exact (result_eq_ok_iff.mp hresult).2.1 ceiling rfl
  · intro hfits
    have hall : rules.AllFit { length := some ceiling } start count := by
      rintro bound hbound
      obtain rfl : ceiling = bound := Option.some.inj hbound
      exact hfits
    rw [derive_of_allFit haccepted hall]
    rfl

/-- Growth is linear, for all rules. A derivation without ceilings returns the generation that is
asked for, and that of two words put together is that of the first followed by that of the second.
With a ceiling on lengths, the derivation of two words put together succeeds exactly if the lengths
of their generations add up to no more than the ceiling, generation by generation. A symbol occurs
in the next generation as often as in all images of the symbols of the present one together. Two
start words of the same symbols have generations of the same symbols, and under any ceilings both
derivations return their last generations, or both fail, with errors that differ at most in the
length at which the generation was given up. -/
theorem derive_is_linear (rules : Rules) :
    (∀ first second count,
      (rules.derive {} first count).result = .ok (rules.generation first count) ∧
        (rules.derive {} (first ++ second) count).result =
          .ok (rules.generation first count ++ rules.generation second count)) ∧
    (∀ first second count (ceiling : UInt64),
      (rules.derive { length := some ceiling } (first ++ second) count).result.isOk = true ↔
        ∀ generation, 1 ≤ generation → generation ≤ count →
          (rules.generation first generation).length +
            (rules.generation second generation).length ≤ ceiling.toNat) ∧
    (∀ start count symbol,
      (rules.generation start (count + 1)).count symbol =
        ((rules.generation start count).map fun other ↦ (rules.image other).count symbol).sum) ∧
    ∀ first second : Word, first.Perm second →
      (∀ count, (rules.generation first count).Perm (rules.generation second count)) ∧
      ∀ ceilings count,
        (rules.derive ceilings first count).result = .ok (rules.generation first count) ∧
            (rules.derive ceilings second count).result = .ok (rules.generation second count) ∨
          ∃ error other, (rules.derive ceilings first count).result = .error error ∧
            (rules.derive ceilings second count).result = .error other ∧ error.Alike other := by
  refine ⟨fun first second count ↦ ⟨rules.result_derive_unbounded first count, ?_⟩,
    fun first second count ceiling ↦ ?_, fun start count symbol ↦ ?_,
    fun first second hperm ↦ ⟨rules.generation_perm hperm, fun ceilings count ↦ ?_⟩⟩
  · rw [rules.result_derive_unbounded, generation_append]
  · rw [isOk_derive_iff]
    simp only [generation_append, List.length_append]
  · rw [generation_succ, count_rewrite]
  · apply derive_alike_of_length_eq
    intro generation
    exact (rules.generation_perm hperm generation).length_eq

/-- Two symbols in either order, of which the first becomes three symbols and the second two: with
room for two symbols, both words fail in the first generation, but not at the same length. -/
theorem order_decides_length :
    let rules : Rules := .ofList [('A', "AAA".toList), ('B', "BB".toList)]
    let ceilings : Ceilings := { length := some 2 }
    ['A', 'B'].Perm ['B', 'A'] ∧
      (rules.derive ceilings ['A', 'B'] 1).result = .error (.tooLong 3 2 1) ∧
      (rules.derive ceilings ['B', 'A'] 1).result = .error (.tooLong 5 2 1) ∧
      ∃ error other, (rules.derive ceilings ['A', 'B'] 1).result = .error error ∧
        (rules.derive ceilings ['B', 'A'] 1).result = .error other ∧ error.Alike other := by
  intro rules ceilings
  have hperm : ['A', 'B'].Perm ['B', 'A'] := by decide
  obtain ⟨-, -, -, hlinear⟩ := derive_is_linear rules
  refine ⟨hperm, rfl, rfl, ?_⟩
  rcases (hlinear _ _ hperm).2 ceilings 1 with ⟨hok, -⟩ | herror
  · cases hok
  · exact herror

end Rules

end Lindenmayer
