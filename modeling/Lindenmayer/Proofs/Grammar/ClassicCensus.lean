import Lindenmayer.Proofs.Grammar.Brackets
import Lindenmayer.Proofs.Grammar.CantorDigits
import Mathlib.Data.Nat.Fib.Basic

/-!
# A census of the classic grammars

The symbols of a classic grammar fall into groups, such as moves, turns and letters, and how many
symbols of each group a generation has is known in closed form. `Classic.census` is the table of
these numbers, and `Classic.counted` says that it is right.

Nearly all of them solve a recurrence in one other number of the same table. The algae need two
steps at a time: a generation is the one before, followed by the one before that
(`Classic.generation_algae`), so its numbers are those of Fibonacci. The tree has an unbranched stem
and two smaller trees, one of them in brackets (`Classic.generation_pythagorasTree_succ`), so every
generation nests one deeper (`Classic.nestingDepth_pythagorasTree`).
-/

set_option autoImplicit false

namespace Lindenmayer

/-! ### Groups of symbols -/

/-- One for the symbols of a group. -/
def groupWeight (group : List Char) (symbol : Char) : Nat := if symbol ∈ group then 1 else 0

theorem tally_groupWeight (group : List Char) (word : Word) :
    tally (groupWeight group) word = word.countP (· ∈ group) := by
  induction word with
  | nil => rfl
  | cons symbol word ih =>
    rw [tally_cons, ih, List.countP_cons, Nat.add_comm, groupWeight]
    simp only [decide_eq_true_eq]

namespace Classic

/-- The groups of symbols of a classic grammar, with the number of symbols of each group in a
generation. -/
def census : Classic → Nat → List (List Char × Nat)
  | algae, count => [(['A'], Nat.fib (count + 1)), (['B'], Nat.fib count)]
  | pythagorasTree, count =>
    [(['0'], 2 ^ count), (['1'], count * 2 ^ count / 2), (['['], 2 ^ count - 1),
      ([']'], 2 ^ count - 1)]
  | cantorSet, count => [(['A'], 2 ^ count), (['B'], 3 ^ count - 2 ^ count)]
  | kochCurve, count => [(['F'], 5 ^ count), (['+', '-'], 5 ^ count - 1)]
  | kochSnowflake, count => [(['F'], 3 * 4 ^ count), (['+', '-'], 4 * 4 ^ count)]
  | sierpinskiTriangle, count =>
    [(['F'], 3 ^ count), (['G'], 2 * 3 ^ count), (['+', '-'], 2 * 3 ^ count)]
  | sierpinskiCurve, count => [(['A', 'B'], 3 ^ count), (['+', '-'], 2 * 3 ^ count - 2)]
  | dragonCurve, count =>
    [(['F'], 2 ^ count), (['X', 'Y'], 2 ^ count), (['+', '-'], 2 * 2 ^ count - 2)]

/-- Whether a generation has as many symbols of each group as the census says. -/
def Counted (classic : Classic) (count : Nat) : Prop :=
  (classic.census count).Forall fun entry ↦
    tally (groupWeight entry.1) (classic.generation count) = entry.2

/-! ### The algae -/

/-- A filament grows into what it is, followed by what it has been before. -/
theorem generation_algae (count : Nat) :
    algae.generation (count + 2) = algae.generation (count + 1) ++ algae.generation count := by
  have himageA : algae.grammar.rules.rewrite ['A'] = ['A'] ++ ['B'] := rfl
  have himageB : algae.grammar.rules.rewrite ['B'] = ['A'] := rfl
  have hstart : algae.grammar.start = ['A'] := rfl
  rw [generation, generation, generation, hstart, Rules.generation_succ_start, himageA,
    Rules.generation_append, Rules.generation_succ_start _ ['B'], himageB]

/-- A tally that begins with two numbers of Fibonacci goes on with the next ones. -/
theorem tally_algae {weight : Char → Nat} (first : Nat)
    (hzero : tally weight (algae.generation 0) = Nat.fib first)
    (hone : tally weight (algae.generation 1) = Nat.fib (first + 1)) (count : Nat) :
    tally weight (algae.generation count) = Nat.fib (count + first) := by
  induction count using Nat.twoStepInduction with
  | zero => rw [hzero, Nat.zero_add]
  | one => rw [hone, Nat.add_comm]
  | more count ih ihSucc =>
    rw [generation_algae, tally_append, ih, ihSucc, Nat.add_right_comm count 2,
      Nat.add_right_comm count 1, Nat.fib_add_two, Nat.add_comm]

theorem counted_algae (count : Nat) : algae.Counted count := by
  have hgrown : tally (groupWeight ['A']) (algae.generation count) = Nat.fib (count + 1) :=
    tally_algae 1 rfl rfl count
  have hyoung : tally (groupWeight ['B']) (algae.generation count) = Nat.fib count :=
    tally_algae 0 rfl rfl count
  exact ⟨hgrown, hyoung⟩

/-! ### The tree -/

/-- The number of stems doubles and grows by that of the leaves, also with the division by two,
which leaves no rest. -/
theorem half_mul_two_pow_succ (count : Nat) :
    (count + 1) * 2 ^ (count + 1) / 2 = 2 * (count * 2 ^ count / 2) + 1 * 2 ^ count := by
  have hdvd : 2 ∣ count * 2 ^ count := by
    cases count with
    | zero => exact ⟨0, by rw [Nat.zero_mul]⟩
    | succ count => exact (dvd_pow_self 2 count.succ_ne_zero).mul_left _
  have hdouble : (count + 1) * 2 ^ (count + 1) = (count * 2 ^ count + 2 ^ count) * 2 := by
    rw [pow_succ, ← Nat.mul_assoc, Nat.succ_mul]
  rw [hdouble, Nat.mul_div_cancel _ two_pos, Nat.mul_div_cancel' hdvd, Nat.one_mul]

theorem counted_pythagorasTree (count : Nat) : pythagorasTree.Counted count := by
  have hleaves (count : Nat) :
      tally (groupWeight ['0']) (pythagorasTree.generation count) = 2 ^ count :=
    (pythagorasTree.tally_generation_of_factor _ 2 (by decide) count).trans (Nat.one_mul _)
  have hstems := pythagorasTree.tally_generation_eq (groupWeight ['1']) 2 1
    (fun count ↦ count * 2 ^ count / 2) (by decide) hleaves rfl half_mul_two_pow_succ count
  have hsucc (count : Nat) : 2 ^ (count + 1) - 1 = 1 * (2 ^ count - 1) + 1 * 2 ^ count := by
    have hpos := Nat.two_pow_pos count
    rw [pow_succ]
    omega
  have hopening := pythagorasTree.tally_generation_eq (groupWeight ['[']) 1 1 (2 ^ · - 1)
    (by decide) hleaves rfl hsucc count
  have hclosing := pythagorasTree.tally_generation_eq (groupWeight [']']) 1 1 (2 ^ · - 1)
    (by decide) hleaves rfl hsucc count
  exact ⟨hleaves count, hstems, hopening, hclosing⟩

/-- What a stem of the tree has become. -/
def treeStem (count : Nat) : Word := pythagorasTree.grammar.rules.generation ['1'] count

theorem generation_pythagorasTree_succ (count : Nat) :
    pythagorasTree.generation (count + 1) =
      treeStem count ++ ('[' :: (pythagorasTree.generation count ++ [']']) ++
        pythagorasTree.generation count) := by
  have himage : pythagorasTree.grammar.rules.rewrite ['0'] =
      ['1'] ++ (['['] ++ (['0'] ++ [']']) ++ ['0']) := rfl
  have hstart : pythagorasTree.grammar.start = ['0'] := rfl
  rw [generation, generation, hstart, Rules.generation_succ_start, himage, Rules.generation_append,
    Rules.generation_append, Rules.generation_append, Rules.generation_append,
    Rules.generation_eq_self _ ['['] rfl, Rules.generation_eq_self _ [']'] rfl, treeStem]
  rfl

/-- A stem has no brackets. -/
theorem balanced_treeStem (count : Nat) :
    Balanced (treeStem count) ∧ nestingDepth (treeStem count) = 0 := by
  have himage : pythagorasTree.grammar.rules.image '1' ⊆ ['1'] := by decide
  have hsubset : treeStem count ⊆ ['1'] :=
    Rules.generation_subset (List.Subset.refl _) (List.forall_mem_singleton.mpr himage) count
  have hbalanced : Balanced ['1'] := by decide
  refine ⟨keepsBrackets_pythagorasTree.balanced_generation hbalanced count, ?_⟩
  exact nestingDepth_of_not_mem fun hmem ↦ absurd (hsubset hmem) (by decide)

theorem balanced_pythagorasTree (count : Nat) : Balanced (pythagorasTree.generation count) := by
  have hstart : Balanced pythagorasTree.grammar.start := by decide
  exact keepsBrackets_pythagorasTree.balanced_generation hstart count

/-- Every generation of the tree nests one deeper. -/
theorem nestingDepth_pythagorasTree (count : Nat) :
    nestingDepth (pythagorasTree.generation count) = count := by
  induction count with
  | zero => rfl
  | succ count ih =>
    have hbalanced := balanced_pythagorasTree count
    obtain ⟨hstem, hdepth⟩ := balanced_treeStem count
    rw [generation_pythagorasTree_succ, nestingDepth_append hstem, hdepth,
      nestingDepth_append hbalanced.enclosed, nestingDepth_enclosed hbalanced, ih]
    omega

/-! ### The set and the curves -/

theorem counted_cantorSet (count : Nat) : cantorSet.Counted count := by
  have hkept (count : Nat) : tally (groupWeight ['A']) (cantorSet.generation count) = 2 ^ count :=
    (cantorSet.tally_generation_of_factor _ 2 (by decide) count).trans (Nat.one_mul _)
  have hgaps := cantorSet.tally_generation_eq (groupWeight ['B']) 3 1
    (fun count ↦ 3 ^ count - 2 ^ count) (by decide) hkept rfl (fun count ↦ by
      have hle : 2 ^ count ≤ 3 ^ count := Nat.pow_le_pow_left (by decide) count
      rw [pow_succ, pow_succ]
      omega) count
  exact ⟨hkept count, hgaps⟩

theorem counted_kochCurve (count : Nat) : kochCurve.Counted count := by
  have hmoves (count : Nat) : tally (groupWeight ['F']) (kochCurve.generation count) = 5 ^ count :=
    (kochCurve.tally_generation_of_factor _ 5 (by decide) count).trans (Nat.one_mul _)
  have hturns := kochCurve.tally_generation_eq (groupWeight ['+', '-']) 1 4 (5 ^ · - 1)
    (by decide) hmoves rfl (fun count ↦ by
      have hpos : 0 < 5 ^ count := Nat.pow_pos (by decide)
      rw [pow_succ]
      omega) count
  exact ⟨hmoves count, hturns⟩

theorem counted_sierpinskiTriangle (count : Nat) : sierpinskiTriangle.Counted count := by
  have hmoves (count : Nat) :
      tally (groupWeight ['F']) (sierpinskiTriangle.generation count) = 3 ^ count :=
    (sierpinskiTriangle.tally_generation_of_factor _ 3 (by decide) count).trans (Nat.one_mul _)
  have hothers := sierpinskiTriangle.tally_generation_eq (groupWeight ['G']) 2 2 (2 * 3 ^ ·)
    (by decide) hmoves rfl (fun count ↦ by rw [pow_succ]; omega) count
  have hturns := sierpinskiTriangle.tally_generation_eq (groupWeight ['+', '-']) 1 4 (2 * 3 ^ ·)
    (by decide) hmoves rfl (fun count ↦ by rw [pow_succ]; omega) count
  exact ⟨hmoves count, hothers, hturns⟩

theorem counted_sierpinskiCurve (count : Nat) : sierpinskiCurve.Counted count := by
  have hletters (count : Nat) :
      tally (groupWeight ['A', 'B']) (sierpinskiCurve.generation count) = 3 ^ count :=
    (sierpinskiCurve.tally_generation_of_factor _ 3 (by decide) count).trans (Nat.one_mul _)
  have hturns := sierpinskiCurve.tally_generation_eq (groupWeight ['+', '-']) 1 4
    (2 * 3 ^ · - 2) (by decide) hletters rfl (fun count ↦ by
      have hpos : 0 < 3 ^ count := Nat.pow_pos (by decide)
      rw [pow_succ]
      omega) count
  exact ⟨hletters count, hturns⟩

theorem groupWeight_eq :
    groupWeight ['F'] = moveWeight ∧ groupWeight ['+', '-'] = turnWeight ∧
      groupWeight ['X', 'Y'] = letterWeight := by
  refine ⟨?_, ?_, ?_⟩ <;> funext symbol <;>
    simp [groupWeight, moveWeight, turnWeight, letterWeight]

theorem counted_kochSnowflake (count : Nat) : kochSnowflake.Counted count := by
  obtain ⟨hmove, hturn, -⟩ := groupWeight_eq
  obtain ⟨hmoves, hturns⟩ := tallies_kochSnowflake count
  rw [← hmove] at hmoves
  rw [← hturn] at hturns
  exact ⟨hmoves, hturns⟩

theorem counted_dragonCurve (count : Nat) : dragonCurve.Counted count := by
  obtain ⟨hmove, hturn, hletter⟩ := groupWeight_eq
  obtain ⟨hletters, hmoves, hturns⟩ := tallies_dragonCurve count
  rw [← hmove] at hmoves
  rw [← hturn] at hturns
  rw [← hletter] at hletters
  exact ⟨hmoves, hletters, Nat.eq_sub_of_add_eq hturns⟩

/-! ### All of them -/

theorem counted (classic : Classic) (count : Nat) : classic.Counted count := by
  cases classic with
  | algae => exact counted_algae count
  | pythagorasTree => exact counted_pythagorasTree count
  | cantorSet => exact counted_cantorSet count
  | kochCurve => exact counted_kochCurve count
  | kochSnowflake => exact counted_kochSnowflake count
  | sierpinskiTriangle => exact counted_sierpinskiTriangle count
  | sierpinskiCurve => exact counted_sierpinskiCurve count
  | dragonCurve => exact counted_dragonCurve count

/-- Every symbol of a classic grammar belongs to a group of the census. -/
theorem exists_mem_census (classic : Classic) (count : Nat) {symbol : Char}
    (h : symbol ∈ classic.symbols) : ∃ entry ∈ classic.census count, symbol ∈ entry.1 := by
  have hgroups : classic.symbols ⊆ (classic.census count).flatMap (·.1) := by
    cases classic <;> exact List.Subset.refl _
  exact List.mem_flatMap.mp (hgroups h)

/-- In every generation of every classic grammar the census tells how many symbols of each group
there are, and there are no symbols of other kinds. The derivation returns that generation.

A generation of the algae is the one before, followed by the one before that. One of the set has
`3 ^ count` symbols. One of the tree is balanced, and its brackets nest `count` deep. -/
theorem generations_match_census (count : Nat) :
    (∀ classic : Classic,
      (classic.derive count).result = .ok (classic.generation count) ∧
        (∀ entry ∈ classic.census count,
          (classic.generation count).countP (· ∈ entry.1) = entry.2) ∧
        ∀ symbol ∈ classic.generation count,
          ∃ entry ∈ classic.census count, symbol ∈ entry.1) ∧
      algae.generation (count + 2) = algae.generation (count + 1) ++ algae.generation count ∧
      (cantorSet.generation count).length = 3 ^ count ∧
      Balanced (pythagorasTree.generation count) ∧
      nestingDepth (pythagorasTree.generation count) = count := by
  refine ⟨fun classic ↦ ⟨classic.result_derive count, fun entry hentry ↦ ?_,
    fun symbol hsymbol ↦ ?_⟩, generation_algae count, length_cantorSet count,
    balanced_pythagorasTree count, nestingDepth_pythagorasTree count⟩
  · rw [← tally_groupWeight]
    exact List.forall_iff_forall_mem.mp (classic.counted count) entry hentry
  · exact classic.exists_mem_census count (classic.generation_subset_symbols count hsymbol)

end Classic

end Lindenmayer
