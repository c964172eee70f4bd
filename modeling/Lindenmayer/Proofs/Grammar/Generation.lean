import Lindenmayer.Grammar.Rewriting

/-!
# Generations of a word

`Rules.generation` rewrites its result once more for every generation. `generation_succ_start` moves
the first rewriting to the start word instead, which is how a derivation runs. Along the prefixes of
one word the images grow (`length_rewrite_le_of_prefix`), although an erasing rule can make a whole
generation shorter than the one before.
-/

set_option autoImplicit false

namespace Lindenmayer

namespace Rules

variable (rules : Rules)

@[simp] theorem generation_zero (start : Word) : rules.generation start 0 = start := rfl

theorem generation_succ (start : Word) (count : Nat) :
    rules.generation start (count + 1) = rules.rewrite (rules.generation start count) := rfl

/-- The first generation may as well be run before the others are counted. -/
theorem generation_succ_start (start : Word) (count : Nat) :
    rules.generation start (count + 1) = rules.generation (rules.rewrite start) count := by
  induction count with
  | zero => rfl
  | succ count ih => rw [generation_succ, ih, generation_succ]

/-- A word of symbols that stay what they are does not grow. -/
theorem generation_eq_self (word : Word) (h : rules.rewrite word = word) (count : Nat) :
    rules.generation word count = word := by
  induction count with
  | zero => rfl
  | succ count ih => rw [generation_succ, ih, h]

/-- Of two prefixes of one word the longer has an image that is at least as long. -/
theorem length_rewrite_le_of_prefix {first second : Word} (h : first <+: second) :
    (rules.rewrite first).length ≤ (rules.rewrite second).length := by
  obtain ⟨rest, rfl⟩ := h
  rw [rewrite_append, List.length_append]
  exact Nat.le_add_right _ _

end Rules

end Lindenmayer
