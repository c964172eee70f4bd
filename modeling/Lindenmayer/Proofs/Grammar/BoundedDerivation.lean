import Lindenmayer.Grammar.Derivation
import Lindenmayer.Proofs.Grammar.Generation
import Mathlib.Order.Basic
import Mathlib.Data.Nat.Find

/-!
# What a bounded derivation returns

A bounded derivation watches the length of a generation while the generation is being written, and
gives up in the middle of it. Its result is stated here in terms of the generations alone.

`CrossesAt` says at which length a generation is given up: the length of the image of the shortest
prefix whose image is longer than the ceiling. `rewriteWithin_of_le` and
`rewriteWithin_of_crossesAt` are the two outcomes of one generation. `FirstBeyond` says which
generation is given up: the first one after the start word that is longer than the ceiling;
generations can shrink again where rules erase, so later ones may fit. `deriveFrom_of_le` and
`deriveFrom_of_firstBeyond` are the two outcomes of a run, with the events it leaves.

`derive_result_iff` puts them together. A derivation that asks for too many generations is refused
whatever the lengths are; otherwise it returns the last generation if all fit, and else reports the
first that does not.
-/

set_option autoImplicit false

namespace Lindenmayer

/-- Whether a derivation of `count` generations is refused before it begins. -/
def Ceilings.Refuses (ceilings : Ceilings) (count : Nat) : Prop :=
  ∃ ceiling, ceilings.generations = some ceiling ∧ ceiling.toNat < count

namespace Rules

variable {rules : Rules}

/-! ### One generation -/

/-- The generation of `word` is given up at `length` symbols: that is the length of the image of the
shortest prefix whose image is longer than the ceiling. -/
def CrossesAt (rules : Rules) (ceiling : Nat) (word : Word) (length : Nat) : Prop :=
  ∃ part, part <+: word ∧ length = (rules.rewrite part).length ∧ ceiling < length ∧
    ∀ other, other <+: word → ceiling < (rules.rewrite other).length → part.length ≤ other.length

theorem CrossesAt.lt_length {ceiling length : Nat} {word : Word}
    (h : rules.CrossesAt ceiling word length) : ceiling < length := by
  obtain ⟨part, -, -, hbeyond, -⟩ := h
  exact hbeyond

/-- A generation is given up at no more than its full length. -/
theorem CrossesAt.le_length {ceiling length : Nat} {word : Word}
    (h : rules.CrossesAt ceiling word length) : length ≤ (rules.rewrite word).length := by
  obtain ⟨part, hpart, rfl, -, -⟩ := h
  exact rules.length_rewrite_le_of_prefix hpart

/-- A generation is given up at one length only. -/
theorem CrossesAt.unique {ceiling first second : Nat} {word : Word}
    (hfirst : rules.CrossesAt ceiling word first) (hsecond : rules.CrossesAt ceiling word second) :
    first = second := by
  obtain ⟨one, hone, rfl, honeBeyond, honeLeast⟩ := hfirst
  obtain ⟨two, htwo, rfl, htwoBeyond, htwoLeast⟩ := hsecond
  have hlength : one.length = two.length :=
    le_antisymm (honeLeast two htwo htwoBeyond) (htwoLeast one hone honeBeyond)
  rw [(List.prefix_of_prefix_length_le hone htwo hlength.le).eq_of_length hlength]

/-- The rest of a generation that fits is written to its end. Assumes: with `length` symbols written
already, the whole generation is no longer than the ceiling. -/
theorem rewriteFrom_of_le {ceiling : Option Nat} {word written : Word} {length : Nat}
    (hfits : ∀ bound ∈ ceiling, length + (rules.rewrite word).length ≤ bound) :
    rules.measured.rewriteFrom ceiling word written length =
      .ok (written.reverse ++ rules.rewrite word, length + (rules.rewrite word).length) := by
  induction word generalizing written length with
  | nil => simp [MeasuredRules.rewriteFrom]
  | cons symbol word ih =>
    simp only [rewrite_cons, List.length_append, ← Nat.add_assoc] at hfits ⊢
    have hstep : exceeds (length + (rules.image symbol).length) ceiling = false := by
      cases ceiling with
      | none => rfl
      | some bound =>
        have hbound := hfits bound rfl
        simp only [exceeds, decide_eq_false_iff_not]
        omega
    rw [rewriteFrom_cons, hstep, if_neg Bool.false_ne_true, ih hfits, List.reverseAux_eq,
      List.reverse_append, List.reverse_reverse, List.append_assoc]

/-- The rest of a generation that does not fit is given up after the first symbol whose image takes
it beyond the ceiling. Assumes: the `length` symbols written already fit, the whole does not. -/
theorem rewriteFrom_of_lt {bound : Nat} {word : Word} (written : Word) {length : Nat}
    (hfits : length ≤ bound) (hbeyond : bound < length + (rules.rewrite word).length) :
    ∃ before symbol after, word = before ++ symbol :: after ∧
      length + (rules.rewrite before).length ≤ bound ∧
      bound < length + (rules.rewrite (before ++ [symbol])).length ∧
      rules.measured.rewriteFrom (some bound) word written length =
        .error (length + (rules.rewrite (before ++ [symbol])).length) := by
  induction word generalizing written length with
  | nil =>
    rw [rewrite_nil, List.length_nil] at hbeyond
    omega
  | cons symbol word ih =>
    by_cases hstep : bound < length + (rules.image symbol).length
    · refine ⟨[], symbol, word, rfl, by simpa using hfits, by simpa using hstep, ?_⟩
      simp [rewriteFrom_cons, exceeds, hstep]
    · simp only [rewrite_cons, List.length_append, ← Nat.add_assoc] at hbeyond
      obtain ⟨before, crossing, after, rfl, hbefore, hcrossing, hresult⟩ :=
        ih ((rules.image symbol).reverseAux written) (Nat.le_of_not_lt hstep) hbeyond
      refine ⟨symbol :: before, crossing, after, rfl, ?_, ?_, ?_⟩
      · simpa [Nat.add_assoc] using hbefore
      · simpa [Nat.add_assoc] using hcrossing
      · rw [rewriteFrom_cons, exceeds, decide_eq_false hstep, if_neg Bool.false_ne_true, hresult]
        simp [Nat.add_assoc]

/-- A generation that is no longer than the ceiling is returned with its length. -/
theorem rewriteWithin_of_le {ceiling : Option Nat} {word : Word}
    (hfits : ∀ bound ∈ ceiling, (rules.rewrite word).length ≤ bound) :
    rules.measured.rewriteWithin ceiling word =
      .ok (rules.rewrite word, (rules.rewrite word).length) := by
  rw [MeasuredRules.rewriteWithin, rewriteFrom_of_le (by simpa using hfits)]
  simp

/-- A generation that is longer than the ceiling is given up, at the length at which it crosses. The
prefixes before that symbol are prefixes of what has fitted. -/
theorem rewriteWithin_of_lt {bound : Nat} {word : Word}
    (hbeyond : bound < (rules.rewrite word).length) :
    ∃ length, rules.CrossesAt bound word length ∧
      rules.measured.rewriteWithin (some bound) word = .error length := by
  obtain ⟨before, symbol, after, rfl, hbefore, hcrossing, hresult⟩ :=
    rewriteFrom_of_lt [] (Nat.zero_le bound) (by simpa using hbeyond)
  rw [Nat.zero_add] at hbefore hcrossing hresult
  refine ⟨_, ⟨before ++ [symbol], ⟨after, by simp⟩, rfl, hcrossing, fun other hother hlong ↦ ?_⟩,
    hresult⟩
  by_contra hshort
  rw [List.length_append, List.length_singleton, Nat.not_le, Nat.lt_succ_iff] at hshort
  have hother : other <+: before :=
    List.prefix_of_prefix_length_le hother (List.prefix_append _ _) hshort
  exact absurd (rules.length_rewrite_le_of_prefix hother) (by omega)

/-- The length at which a generation is given up is the one at which it crosses the ceiling. -/
theorem rewriteWithin_of_crossesAt {bound length : Nat} {word : Word}
    (hcrosses : rules.CrossesAt bound word length) :
    rules.measured.rewriteWithin (some bound) word = .error length := by
  have hbeyond : bound < (rules.rewrite word).length :=
    lt_of_lt_of_le hcrosses.lt_length hcrosses.le_length
  obtain ⟨other, hother, hresult⟩ := rewriteWithin_of_lt hbeyond
  rw [hresult, hcrosses.unique hother]

/-! ### A run of generations -/

/-- Generation number `generation` is the first after the start word that is longer than the
ceiling. -/
def FirstBeyond (rules : Rules) (ceiling : Nat) (start : Word) (generation : Nat) : Prop :=
  1 ≤ generation ∧ ceiling < (rules.generation start generation).length ∧
    ∀ earlier, 1 ≤ earlier → earlier < generation →
      (rules.generation start earlier).length ≤ ceiling

/-- The events of `count` generations of `word`, which is itself generation number `done`. -/
def growth (rules : Rules) (word : Word) (done count : Nat) : List Event :=
  (List.range count).map fun index ↦
    .rewrote (done + index + 1) (rules.generation word (index + 1)).length

theorem growth_succ (word : Word) (done count : Nat) :
    rules.growth word done (count + 1) =
      .rewrote (done + 1) (rules.rewrite word).length ::
        rules.growth (rules.rewrite word) (done + 1) count := by
  simp only [growth, List.range_succ_eq_map, List.map_cons, List.map_map]
  congr 1
  refine List.map_congr_left fun index _ ↦ ?_
  rw [Function.comp_apply, rules.generation_succ_start word (index + 1),
    show done + (index + 1) + 1 = done + 1 + index + 1 by omega]

/-- A run whose generations all fit ends with the last of them. Assumes: none of the remaining
generations is longer than the ceiling. -/
theorem deriveFrom_of_le {ceiling : Option Nat} {word : Word} {done remaining : Nat}
    {events : List Event}
    (hfits : ∀ bound ∈ ceiling, ∀ generation, 1 ≤ generation → generation ≤ remaining →
      (rules.generation word generation).length ≤ bound) :
    rules.measured.deriveFrom ceiling word word.length done events remaining =
      ((rules.growth word done remaining).reverse ++ events,
        .ok (rules.generation word remaining, (rules.generation word remaining).length)) := by
  induction remaining generalizing word done events with
  | zero => rfl
  | succ remaining ih =>
    have hstep : rules.measured.rewriteWithin ceiling word =
        .ok (rules.rewrite word, (rules.rewrite word).length) :=
      rewriteWithin_of_le fun bound hbound ↦ hfits bound hbound 1 le_rfl (by omega)
    have hrest : ∀ bound ∈ ceiling, ∀ generation, 1 ≤ generation → generation ≤ remaining →
        (rules.generation (rules.rewrite word) generation).length ≤ bound := by
      intro bound hbound generation hpositive hle
      rw [← generation_succ_start]
      exact hfits bound hbound (generation + 1) (by omega) (by omega)
    rw [MeasuredRules.deriveFrom, hstep]
    simp only [ih hrest, generation_succ_start, growth_succ, List.reverse_cons, List.append_assoc,
      List.singleton_append]

/-- A run is given up in the first generation that does not fit. Assumes: that generation follows
`earlier` others and is among the remaining ones, and `length` is where it crosses the ceiling. -/
theorem deriveFrom_of_firstBeyond {bound length earlier : Nat} {word : Word} {done remaining : Nat}
    {events : List Event} (hlt : earlier < remaining)
    (hfirst : rules.FirstBeyond bound word (earlier + 1))
    (hcrosses : rules.CrossesAt bound (rules.generation word earlier) length) :
    rules.measured.deriveFrom (some bound) word word.length done events remaining =
      ((rules.growth word done earlier).reverse ++ events,
        .error (.tooLong length bound (done + earlier + 1))) := by
  induction earlier generalizing word done events remaining with
  | zero =>
    obtain ⟨remaining, rfl⟩ : ∃ fewer, remaining = fewer + 1 := ⟨remaining - 1, by omega⟩
    rw [generation_zero] at hcrosses
    rw [MeasuredRules.deriveFrom, rewriteWithin_of_crossesAt hcrosses]
    rfl
  | succ earlier ih =>
    obtain ⟨remaining, rfl⟩ : ∃ fewer, remaining = fewer + 1 := ⟨remaining - 1, by omega⟩
    obtain ⟨-, hbeyond, hfits⟩ := hfirst
    have hstep : rules.measured.rewriteWithin (some bound) word =
        .ok (rules.rewrite word, (rules.rewrite word).length) :=
      rewriteWithin_of_le fun _ h ↦ by
        obtain rfl : bound = _ := Option.some.inj h
        exact hfits 1 le_rfl (by omega)
    have hrest : rules.FirstBeyond bound (rules.rewrite word) (earlier + 1) := by
      refine ⟨by omega, by rwa [← generation_succ_start], fun previous hpositive hprevious ↦ ?_⟩
      rw [← generation_succ_start]
      exact hfits (previous + 1) (by omega) (by omega)
    rw [generation_succ_start] at hcrosses
    rw [MeasuredRules.deriveFrom, hstep]
    simp only [ih (Nat.lt_of_succ_lt_succ hlt) hrest hcrosses, growth_succ, List.reverse_cons,
      List.append_assoc, List.singleton_append]
    rw [show done + 1 + earlier + 1 = done + (earlier + 1) + 1 by omega]

/-- If some generation after the start word does not fit, there is a first one that does not, and it
crosses the ceiling somewhere. -/
theorem exists_firstBeyond {bound generation : Nat} {start : Word} (hpositive : 1 ≤ generation)
    (hbeyond : bound < (rules.generation start generation).length) :
    ∃ earlier length, earlier < generation ∧ rules.FirstBeyond bound start (earlier + 1) ∧
      rules.CrossesAt bound (rules.generation start earlier) length := by
  classical
  have hexists : ∃ earlier, bound < (rules.generation start (earlier + 1)).length :=
    ⟨generation - 1, by rwa [Nat.sub_add_cancel hpositive]⟩
  have hfirst : bound < (rules.generation start (Nat.find hexists + 1)).length :=
    Nat.find_spec hexists
  have hleast : Nat.find hexists ≤ generation - 1 :=
    Nat.find_min' hexists (by rwa [Nat.sub_add_cancel hpositive])
  obtain ⟨length, hcrosses, -⟩ := rewriteWithin_of_lt hfirst
  refine ⟨Nat.find hexists, length, by omega, ⟨by omega, hfirst, ?_⟩, hcrosses⟩
  intro earlier hone hlt
  obtain ⟨earlier, rfl⟩ : ∃ fewer, earlier = fewer + 1 := ⟨earlier - 1, by omega⟩
  exact Nat.le_of_not_lt (Nat.find_min hexists (Nat.lt_of_succ_lt_succ hlt))

/-! ### A whole derivation -/

theorem derive_of_refuses {ceilings : Ceilings} {start : Word} {count : Nat} {ceiling : UInt32}
    (hceiling : ceilings.generations = some ceiling) (hlt : ceiling.toNat < count) :
    rules.derive ceilings start count = ⟨.error (.tooManyGenerations count ceiling.toNat), []⟩ := by
  rw [derive, hceiling]
  exact if_pos hlt

theorem derive_of_not_refuses {ceilings : Ceilings} {start : Word} {count : Nat}
    (haccepted : ¬ ceilings.Refuses count) :
    rules.derive ceilings start count = derive.run rules ceilings start count := by
  rw [derive]
  cases hceiling : ceilings.generations with
  | none => rfl
  | some ceiling => exact if_neg fun hlt ↦ haccepted ⟨ceiling, hceiling, hlt⟩

/-- Whether none of the generations `1` to `count` is longer than the ceiling on lengths. The start
word, which is generation zero, is not asked about. -/
def AllFit (rules : Rules) (ceilings : Ceilings) (start : Word) (count : Nat) : Prop :=
  ∀ bound, ceilings.length = some bound → ∀ generation, 1 ≤ generation → generation ≤ count →
    (rules.generation start generation).length ≤ bound.toNat

/-- An accepted derivation whose generations all fit returns the last of them. -/
theorem derive_of_allFit {ceilings : Ceilings} {start : Word} {count : Nat}
    (haccepted : ¬ ceilings.Refuses count) (hfits : rules.AllFit ceilings start count) :
    rules.derive ceilings start count =
      ⟨.ok (rules.generation start count), rules.growth start 0 count ++
        [.derived count start.length (rules.generation start count).length]⟩ := by
  have hbounds : ∀ bound ∈ ceilings.length.map UInt64.toNat, ∀ generation, 1 ≤ generation →
      generation ≤ count → (rules.generation start generation).length ≤ bound := by
    intro bound hbound
    obtain ⟨ceiling, hceiling, rfl⟩ := Option.map_eq_some_iff.mp hbound
    exact hfits ceiling hceiling
  rw [derive_of_not_refuses haccepted, derive.run, deriveFrom_of_le hbounds]
  simp only [List.append_nil, List.reverse_cons, List.reverse_reverse]

/-- An accepted derivation is given up in the first generation that does not fit. -/
theorem derive_of_firstBeyond {ceilings : Ceilings} {start : Word} {count earlier length : Nat}
    {bound : UInt64} (haccepted : ¬ ceilings.Refuses count) (hbound : ceilings.length = some bound)
    (hlt : earlier < count) (hfirst : rules.FirstBeyond bound.toNat start (earlier + 1))
    (hcrosses : rules.CrossesAt bound.toNat (rules.generation start earlier) length) :
    rules.derive ceilings start count =
      ⟨.error (.tooLong length bound.toNat (earlier + 1)), rules.growth start 0 earlier⟩ := by
  rw [derive_of_not_refuses haccepted, derive.run, hbound, Option.map_some,
    deriveFrom_of_firstBeyond hlt hfirst hcrosses]
  simp only [List.append_nil, List.reverse_reverse, Nat.zero_add]

/-- The three courses of a derivation: it is refused, or all of its generations fit, or there is a
first one that does not. -/
theorem derive_cases (rules : Rules) (ceilings : Ceilings) (start : Word) (count : Nat) :
    (∃ ceiling, ceilings.generations = some ceiling ∧ ceiling.toNat < count ∧
      rules.derive ceilings start count =
        ⟨.error (.tooManyGenerations count ceiling.toNat), []⟩) ∨
    (¬ ceilings.Refuses count ∧ rules.AllFit ceilings start count ∧
      rules.derive ceilings start count =
        ⟨.ok (rules.generation start count), rules.growth start 0 count ++
          [.derived count start.length (rules.generation start count).length]⟩) ∨
    (¬ ceilings.Refuses count ∧ ∃ bound earlier length, ceilings.length = some bound ∧
      earlier < count ∧ rules.FirstBeyond bound.toNat start (earlier + 1) ∧
      rules.CrossesAt bound.toNat (rules.generation start earlier) length ∧
      rules.derive ceilings start count =
        ⟨.error (.tooLong length bound.toNat (earlier + 1)), rules.growth start 0 earlier⟩) := by
  by_cases hrefuses : ceilings.Refuses count
  · obtain ⟨ceiling, hceiling, hlt⟩ := hrefuses
    exact .inl ⟨ceiling, hceiling, hlt, derive_of_refuses hceiling hlt⟩
  by_cases hfits : rules.AllFit ceilings start count
  · exact .inr (.inl ⟨hrefuses, hfits, derive_of_allFit hrefuses hfits⟩)
  · simp only [AllFit, not_forall, Nat.not_le] at hfits
    obtain ⟨bound, hbound, generation, hpositive, hle, hbeyond⟩ := hfits
    obtain ⟨earlier, length, hearlier, hfirst, hcrosses⟩ := exists_firstBeyond hpositive hbeyond
    have hlt : earlier < count := lt_of_lt_of_le hearlier hle
    exact .inr (.inr ⟨hrefuses, bound, earlier, length, hbound, hlt, hfirst, hcrosses,
      derive_of_firstBeyond hrefuses hbound hlt hfirst hcrosses⟩)

/-- Too many generations are reported exactly by a derivation that is refused. -/
theorem result_eq_tooManyGenerations_iff {ceilings : Ceilings} {start : Word}
    {count requested ceiling : Nat} :
    (rules.derive ceilings start count).result =
        .error (.tooManyGenerations requested ceiling) ↔
      requested = count ∧ ceilings.generations.map UInt32.toNat = some ceiling ∧
        ceiling < count := by
  constructor
  · intro hresult
    rcases rules.derive_cases ceilings start count with
        ⟨bound, hbound, hlt, hderive⟩ | ⟨-, -, hderive⟩ | ⟨-, _, _, _, -, -, -, -, hderive⟩ <;>
      rw [hderive] at hresult <;> cases hresult
    exact ⟨rfl, by rw [hbound, Option.map_some], hlt⟩
  · rintro ⟨rfl, hceiling, hlt⟩
    obtain ⟨bound, hbound, rfl⟩ := Option.map_eq_some_iff.mp hceiling
    rw [derive_of_refuses hbound hlt]

/-- A word is returned exactly by an accepted derivation whose generations all fit. -/
theorem result_eq_ok_iff {ceilings : Ceilings} {start word : Word} {count : Nat} :
    (rules.derive ceilings start count).result = .ok word ↔
      ¬ ceilings.Refuses count ∧ rules.AllFit ceilings start count ∧
        word = rules.generation start count := by
  constructor
  · intro hresult
    rcases rules.derive_cases ceilings start count with
        ⟨_, -, -, hderive⟩ | ⟨haccepted, hfits, hderive⟩ | ⟨-, _, _, _, -, -, -, -, hderive⟩ <;>
      rw [hderive] at hresult <;> cases hresult
    exact ⟨haccepted, hfits, rfl⟩
  · rintro ⟨haccepted, hfits, rfl⟩
    rw [derive_of_allFit haccepted hfits]

/-- A length is reported exactly by an accepted derivation of which some generation does not fit. -/
theorem result_eq_tooLong_iff {ceilings : Ceilings} {start : Word}
    {count length ceiling generation : Nat} :
    (rules.derive ceilings start count).result = .error (.tooLong length ceiling generation) ↔
      ¬ ceilings.Refuses count ∧ ceilings.length.map UInt64.toNat = some ceiling ∧
        generation ≤ count ∧ rules.FirstBeyond ceiling start generation ∧
        rules.CrossesAt ceiling (rules.generation start (generation - 1)) length := by
  constructor
  · intro hresult
    rcases rules.derive_cases ceilings start count with
        ⟨_, -, -, hderive⟩ | ⟨-, -, hderive⟩ |
        ⟨haccepted, bound, earlier, first, hbound, hlt, hfirst, hcrosses, hderive⟩ <;>
      rw [hderive] at hresult <;> cases hresult
    exact ⟨haccepted, by rw [hbound, Option.map_some], hlt, hfirst, hcrosses⟩
  · rintro ⟨haccepted, hceiling, hle, hfirst, hcrosses⟩
    obtain ⟨bound, hbound, rfl⟩ := Option.map_eq_some_iff.mp hceiling
    have hpositive := hfirst.1
    obtain ⟨earlier, rfl⟩ : ∃ fewer, generation = fewer + 1 := ⟨generation - 1, by omega⟩
    rw [derive_of_firstBeyond haccepted hbound hle hfirst hcrosses]

/-- The result of a derivation in terms of the plain generations, for all rules, ceilings and start
words and every number of generations. It reports too many generations exactly if more are asked for
than the ceiling on generations allows, whatever the lengths are. Otherwise it returns the last
generation exactly if none of the generations after the start word is longer than the ceiling on
lengths. Otherwise it reports the first generation that is longer, with the length at which that
generation crosses the ceiling. -/
theorem derive_result_iff (rules : Rules) (ceilings : Ceilings) (start : Word) (count : Nat) :
    (∀ requested ceiling,
      (rules.derive ceilings start count).result =
          .error (.tooManyGenerations requested ceiling) ↔
        requested = count ∧ ceilings.generations.map UInt32.toNat = some ceiling ∧
          ceiling < count) ∧
    (∀ word,
      (rules.derive ceilings start count).result = .ok word ↔
        ¬ ceilings.Refuses count ∧ rules.AllFit ceilings start count ∧
          word = rules.generation start count) ∧
    (∀ length ceiling generation,
      (rules.derive ceilings start count).result =
          .error (.tooLong length ceiling generation) ↔
        ¬ ceilings.Refuses count ∧ ceilings.length.map UInt64.toNat = some ceiling ∧
          generation ≤ count ∧ rules.FirstBeyond ceiling start generation ∧
          rules.CrossesAt ceiling (rules.generation start (generation - 1)) length ∧
          ceiling < length ∧ length ≤ (rules.generation start generation).length) ∧
    (¬ ceilings.Refuses count → ¬ rules.AllFit ceilings start count →
      ∃ length ceiling generation, (rules.derive ceilings start count).result =
        .error (.tooLong length ceiling generation)) := by
  refine ⟨fun _ _ ↦ result_eq_tooManyGenerations_iff, fun _ ↦ result_eq_ok_iff,
    fun length ceiling generation ↦ ?_, fun haccepted hbeyond ↦ ?_⟩
  · rw [result_eq_tooLong_iff]
    constructor
    · rintro ⟨haccepted, hceiling, hle, hfirst, hcrosses⟩
      refine ⟨haccepted, hceiling, hle, hfirst, hcrosses, hcrosses.lt_length, ?_⟩
      calc length ≤ (rules.rewrite (rules.generation start (generation - 1))).length :=
            hcrosses.le_length
        _ = (rules.generation start generation).length := by
          rw [← generation_succ, Nat.sub_add_cancel hfirst.1]
    · rintro ⟨haccepted, hceiling, hle, hfirst, hcrosses, -, -⟩
      exact ⟨haccepted, hceiling, hle, hfirst, hcrosses⟩
  · rcases rules.derive_cases ceilings start count with
        ⟨ceiling, hceiling, hlt, -⟩ | ⟨-, hfits, -⟩ |
        ⟨-, bound, earlier, length, -, -, -, -, hderive⟩
    · exact absurd ⟨ceiling, hceiling, hlt⟩ haccepted
    · exact absurd hfits hbeyond
    · exact ⟨length, bound.toNat, earlier + 1, by rw [hderive]⟩

end Rules

end Lindenmayer
