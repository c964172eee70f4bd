import Lindenmayer.Grammar.Classic
import Lindenmayer.Proofs.Grammar.Linearity

/-!
# Tallies of the classic grammars

The tallies of the symbols of a classic grammar in the next generation are linear in those of the
present one, so they follow recurrences. `Classic.tally_generation_eq` says that a tally is whatever
solves its recurrence, and `Classic.tally_generation_of_factor` is the case of a tally that grows by
itself, by the same factor in every generation.

The dragon and the snowflake also have a drawing alphabet. Both write a move as `F` and a turn as
`+` or `-`; the dragon has two more letters, `X` and `Y`, which are not drawn. Their tallies are
`Classic.tallies_dragonCurve` and `Classic.tallies_kochSnowflake`.
-/

set_option autoImplicit false

namespace Lindenmayer

/-- One for the symbol of a move. -/
def moveWeight (symbol : Char) : Nat := if symbol = 'F' then 1 else 0

/-- One for the symbols of turns. -/
def turnWeight (symbol : Char) : Nat := if symbol = '+' ∨ symbol = '-' then 1 else 0

/-- One for the letters that only grow. -/
def letterWeight (symbol : Char) : Nat := if symbol = 'X' ∨ symbol = 'Y' then 1 else 0

theorem tally_moveWeight (word : Word) : tally moveWeight word = word.count 'F' := by
  induction word with
  | nil => rfl
  | cons symbol word ih =>
    rw [tally_cons, ih, List.count_cons, Nat.add_comm, moveWeight]
    simp only [beq_iff_eq]

namespace Classic

/-- The word of a generation of a classic grammar. -/
def generation (classic : Classic) (count : Nat) : Word :=
  classic.grammar.rules.generation classic.grammar.start count

/-- Classic grammars are derived without ceilings, so no derivation fails. -/
theorem result_derive (classic : Classic) (count : Nat) :
    (classic.derive count).result = .ok (classic.generation count) :=
  classic.grammar.rules.result_derive_unbounded classic.grammar.start count

/-- The symbols of the dragon. -/
def dragonSymbols : List Char := ['F', 'X', 'Y', '+', '-']

/-- The symbols of the snowflake. -/
def snowflakeSymbols : List Char := ['F', '+', '-']

/-- The symbols that a classic grammar writes. -/
def symbols : Classic → List Char
  | algae => ['A', 'B']
  | pythagorasTree => ['0', '1', '[', ']']
  | cantorSet => ['A', 'B']
  | kochCurve => ['F', '+', '-']
  | kochSnowflake => snowflakeSymbols
  | sierpinskiTriangle => ['F', 'G', '+', '-']
  | sierpinskiCurve => ['A', 'B', '+', '-']
  | dragonCurve => dragonSymbols

theorem generation_subset_symbols (classic : Classic) (count : Nat) :
    classic.generation count ⊆ classic.symbols := by
  have hstart : classic.grammar.start ⊆ classic.symbols := by cases classic <;> decide
  have himage : classic.symbols.Forall fun symbol ↦
      classic.grammar.rules.image symbol ⊆ classic.symbols := by cases classic <;> decide
  exact Rules.generation_subset hstart (List.forall_iff_forall_mem.mp himage) count

/-! ### Recurrences -/

/-- The tally of the next generation, for weights of which it is known what they make of the images
of all symbols. -/
theorem tally_generation_succ (classic : Classic) {weight next : Char → Nat}
    (himage : classic.symbols.Forall fun symbol ↦
      tally weight (classic.grammar.rules.image symbol) = next symbol) (count : Nat) :
    tally weight (classic.generation (count + 1)) = tally next (classic.generation count) :=
  Rules.tally_generation_succ (classic.generation_subset_symbols count)
    (List.forall_iff_forall_mem.mp himage)

/-- A tally that grows by a factor, and by some more for another tally, is the solution of that
recurrence. -/
theorem tally_generation_eq (classic : Classic) (weight : Char → Nat) {other : Char → Nat}
    (factor more : Nat) (solution : Nat → Nat) {driving : Nat → Nat}
    (himage : classic.symbols.Forall fun symbol ↦
      tally weight (classic.grammar.rules.image symbol) =
        factor * weight symbol + more * other symbol)
    (hother : ∀ count, tally other (classic.generation count) = driving count)
    (hzero : tally weight classic.grammar.start = solution 0)
    (hsucc : ∀ count, solution (count + 1) = factor * solution count + more * driving count)
    (count : Nat) : tally weight (classic.generation count) = solution count := by
  induction count with
  | zero => exact hzero
  | succ count ih =>
    rw [classic.tally_generation_succ himage, tally_add, tally_mul, tally_mul, ih, hother, hsucc]

/-- A tally that grows by a factor only is a multiple of a power. -/
theorem tally_generation_of_factor (classic : Classic) (weight : Char → Nat) (factor : Nat)
    (himage : classic.symbols.Forall fun symbol ↦
      tally weight (classic.grammar.rules.image symbol) = factor * weight symbol)
    (count : Nat) :
    tally weight (classic.generation count) =
      tally weight classic.grammar.start * factor ^ count := by
  induction count with
  | zero => rw [pow_zero, mul_one, generation, Rules.generation_zero]
  | succ count ih =>
    rw [classic.tally_generation_succ himage, tally_mul, ih, pow_succ, Nat.mul_comm, Nat.mul_assoc]

/-! ### The dragon -/

theorem generation_dragonCurve_subset (count : Nat) :
    dragonCurve.generation count ⊆ dragonSymbols :=
  dragonCurve.generation_subset_symbols count

/-- Each letter becomes two letters, one more move and two more turns. -/
theorem tallies_dragonCurve (count : Nat) :
    tally letterWeight (dragonCurve.generation count) = 2 ^ count ∧
      tally moveWeight (dragonCurve.generation count) = 2 ^ count ∧
      tally turnWeight (dragonCurve.generation count) + 2 = 2 * 2 ^ count := by
  have hletters (count : Nat) : tally letterWeight (dragonCurve.generation count) = 2 ^ count :=
    (dragonCurve.tally_generation_of_factor letterWeight 2 (by decide) count).trans (Nat.one_mul _)
  have hmoves := dragonCurve.tally_generation_eq moveWeight 1 1 (2 ^ ·) (by decide) hletters rfl
    (fun count ↦ by rw [pow_succ]; omega) count
  have hturns := dragonCurve.tally_generation_eq turnWeight 1 2 (fun count ↦ 2 * 2 ^ count - 2)
    (by decide) hletters rfl (fun count ↦ by have := Nat.two_pow_pos count; rw [pow_succ]; omega)
    count
  have hpos := Nat.two_pow_pos count
  exact ⟨hletters count, hmoves, by omega⟩

/-! ### The snowflake -/

theorem generation_kochSnowflake_subset (count : Nat) :
    kochSnowflake.generation count ⊆ snowflakeSymbols :=
  kochSnowflake.generation_subset_symbols count

/-- Each move becomes four moves with four turns between them. -/
theorem tallies_kochSnowflake (count : Nat) :
    tally moveWeight (kochSnowflake.generation count) = 3 * 4 ^ count ∧
      tally turnWeight (kochSnowflake.generation count) = 4 * 4 ^ count := by
  have hmoves (count : Nat) :
      tally moveWeight (kochSnowflake.generation count) = 3 * 4 ^ count :=
    kochSnowflake.tally_generation_of_factor moveWeight 4 (by decide) count
  exact ⟨hmoves count, kochSnowflake.tally_generation_eq turnWeight 1 4 (4 * 4 ^ ·) (by decide)
    hmoves rfl (fun count ↦ by rw [pow_succ]; omega) count⟩

end Classic

end Lindenmayer
