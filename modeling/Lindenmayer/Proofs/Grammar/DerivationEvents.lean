import Lindenmayer.Proofs.Grammar.BoundedDerivation

/-!
# The events of a derivation

A derivation adds up the lengths of the images while it writes a generation, and reports the sum.
The events that it leaves are stated here in terms of the generations alone: one for each generation
that was finished, with its number and the length of its word, and one more for the whole if all of
them were.

`events_derive` reads the finished generations off the result (`finishedGenerations`): a derivation
that is given up has finished the generations before the one it names, and a derivation that is
refused has finished none. `deriveSigned_eq` says what becomes of a signed number of generations.
`derive_leaves_events` puts the cases together.
-/

set_option autoImplicit false

namespace Lindenmayer

/-! ### Finished generations -/

/-- How many of `count` generations were finished by a derivation with the given result. -/
def finishedGenerations (count : Nat) : Except DerivationError Word → Nat
  | .ok _ => count
  | .error (.tooLong _ _ generation) => generation - 1
  | .error _ => 0

/-- The events of a derivation that has come to its end, after those of its generations. -/
def concludingEvents (start : Word) (count : Nat) : Except DerivationError Word → List Event
  | .ok word => [.derived count start.length word.length]
  | .error _ => []

namespace Rules

variable {rules : Rules} {ceilings : Ceilings} {start : Word} {count : Nat}

/-- A derivation leaves an event for every generation that it finished, and one more if these are
all. -/
theorem events_derive (rules : Rules) (ceilings : Ceilings) (start : Word) (count : Nat) :
    (rules.derive ceilings start count).events =
      rules.growth start 0
          (finishedGenerations count (rules.derive ceilings start count).result) ++
        concludingEvents start count (rules.derive ceilings start count).result := by
  rcases rules.derive_cases ceilings start count with
      ⟨_, -, -, hderive⟩ | ⟨-, -, hderive⟩ | ⟨-, _, earlier, _, -, -, -, -, hderive⟩
  · rw [hderive]
    rfl
  · rw [hderive]
    rfl
  · rw [hderive]
    exact (List.append_nil _).symm

/-- The generations of a run from the start word, counted from one. -/
theorem growth_zero (rules : Rules) (start : Word) (count : Nat) :
    rules.growth start 0 count =
      (List.range count).map fun index ↦
        .rewrote (index + 1) (rules.generation start (index + 1)).length := by
  rw [growth]
  refine List.map_congr_left fun index _ ↦ ?_
  rw [Nat.zero_add]

/-- Finished generations are details. -/
theorem map_level_growth (word : Word) (done count : Nat) :
    (rules.growth word done count).map Event.level = List.replicate count .trace := by
  rw [growth, List.map_map, List.eq_replicate_iff]
  refine ⟨by rw [List.length_map, List.length_range], fun level hlevel ↦ ?_⟩
  obtain ⟨index, -, rfl⟩ := List.mem_map.mp hlevel
  rfl

/-- A natural number of generations is never refused as negative. -/
theorem result_derive_ne_negativeCount (negative : Int) :
    (rules.derive ceilings start count).result ≠ .error (.negativeCount negative) := by
  intro hresult
  rcases rules.derive_cases ceilings start count with
      ⟨_, -, -, hderive⟩ | ⟨-, -, hderive⟩ | ⟨-, _, _, _, -, -, -, -, hderive⟩ <;>
    rw [hderive] at hresult <;> cases hresult

/-! ### Signed numbers of generations -/

/-- A number of generations that fits a word of thirty-two bits is derived without ceilings, and any
other number is refused without an event. -/
theorem deriveSigned_eq (rules : Rules) (start : Word) (signed : Int) :
    rules.deriveSigned start signed =
      if signed < 0 then ⟨.error (.negativeCount signed), []⟩
      else if largestCount < signed then
        ⟨.error (.tooManyGenerations signed.toNat largestCount), []⟩
      else rules.derive {} start signed.toNat := by
  rw [deriveSigned, generationCount]
  by_cases hnegative : signed < 0
  · rw [if_pos hnegative, if_pos hnegative]
  · rw [if_neg hnegative, if_neg hnegative]
    by_cases hlarge : largestCount < signed.toNat
    · rw [if_pos hlarge, if_pos (by omega)]
    · rw [if_neg hlarge, if_neg (by omega)]

/-! ### All events -/

/-- The events of a derivation, for all rules, ceilings and start words and every number of
generations. A derivation that is refused leaves none. One that is given up in some generation
leaves one detail for each generation before it, with its number and its length. One that returns a
word leaves one such detail for every generation and then one event for the whole, with the number
of generations, the length of the start word and the length of the word returned. A signed number of
generations from zero to the largest is derived as if there were no ceilings, and any other is
refused without an event. -/
theorem derive_leaves_events (rules : Rules) (ceilings : Ceilings) (start : Word) (count : Nat) :
    let derivation := rules.derive ceilings start count
    let finished (generations : Nat) : List Event := (List.range generations).map fun index ↦
      .rewrote (index + 1) (rules.generation start (index + 1)).length
    (∀ requested ceiling,
      derivation.result = .error (.tooManyGenerations requested ceiling) →
        derivation.events = []) ∧
    (∀ length ceiling generation,
      derivation.result = .error (.tooLong length ceiling generation) →
        derivation.events = finished (generation - 1) ∧
          derivation.events.map Event.level = List.replicate (generation - 1) .trace) ∧
    (∀ word, derivation.result = .ok word →
      derivation.events = finished count ++ [.derived count start.length word.length] ∧
        derivation.events.map Event.level = List.replicate count .trace ++ [.debug]) ∧
    (∀ negative, derivation.result ≠ .error (.negativeCount negative)) ∧
    (∀ signed : Int, 0 ≤ signed → signed ≤ largestCount →
      rules.deriveSigned start signed = rules.derive {} start signed.toNat) ∧
    (∀ signed : Int, signed < 0 →
      rules.deriveSigned start signed = ⟨.error (.negativeCount signed), []⟩) ∧
    ∀ signed : Int, largestCount < signed →
      rules.deriveSigned start signed =
        ⟨.error (.tooManyGenerations signed.toNat largestCount), []⟩ := by
  intro derivation finished
  have hevents := rules.events_derive ceilings start count
  refine ⟨fun requested ceiling hresult ↦ ?_, fun length ceiling generation hresult ↦ ?_,
    fun word hresult ↦ ?_, fun negative ↦ result_derive_ne_negativeCount negative,
    fun signed hnonneg hle ↦ ?_, fun signed hnegative ↦ ?_, fun signed hlarge ↦ ?_⟩
  · rw [hresult] at hevents
    exact hevents
  · rw [hresult, concludingEvents, List.append_nil, finishedGenerations] at hevents
    refine ⟨hevents.trans (rules.growth_zero start _), ?_⟩
    rw [hevents, map_level_growth]
  · rw [hresult, concludingEvents, finishedGenerations] at hevents
    refine ⟨by rw [hevents, growth_zero], ?_⟩
    rw [hevents, List.map_append, map_level_growth]
    rfl
  · rw [deriveSigned_eq, if_neg (Int.not_lt.mpr hnonneg), if_neg (Int.not_lt.mpr hle)]
  · rw [deriveSigned_eq, if_pos hnegative]
  · rw [deriveSigned_eq, if_neg (by omega), if_pos hlarge]

/-- A word of symbols of more than one byte grows by two symbols a generation. Under a ceiling of
seven the third generation is given up, and the two before it are reported with their numbers of
symbols; two generations alone are reported with one event more. A negative number of generations
leaves nothing, nor does one that is above a ceiling on generations. -/
theorem derive_greek_leaves_events :
    let rules : Rules := .ofList [('α', "αβ".toList)]
    let start := "α-α".toList
    let reports : List Event := [.rewrote 1 5, .rewrote 2 7]
    (rules.derive { length := some 7 } start 3).result = .error (.tooLong 8 7 3) ∧
      (rules.derive { length := some 7 } start 3).events = reports ∧
      (rules.derive { generations := some 2 } start 3).events = [] ∧
      (rules.derive {} start 2).result = .ok "αββ-αββ".toList ∧
      (rules.deriveSigned start 2).events = reports ++ [.derived 2 3 7] ∧
      (rules.deriveSigned start (-1)).events = [] ∧
      (rules.deriveSigned start 4294967296).events = [] := by
  intro rules start reports
  obtain ⟨-, hlong, -⟩ := derive_leaves_events rules { length := some 7 } start 3
  obtain ⟨hrefused, -⟩ := derive_leaves_events rules { generations := some 2 } start 3
  obtain ⟨-, -, hword, -, hsigned, hnegative, hlarge⟩ := derive_leaves_events rules {} start 2
  refine ⟨rfl, (hlong 8 7 3 rfl).1, hrefused 3 2 rfl, rfl, ?_, ?_, ?_⟩
  · rw [hsigned 2 (by decide) (by decide)]
    exact (hword "αββ-αββ".toList rfl).1
  · rw [hnegative (-1) (by decide)]
  · rw [hlarge 4294967296 (by decide)]

end Rules

end Lindenmayer
