import Lindenmayer.Symbol.Table

/-!
# Parallel rewriting

A word is a list of symbols, and rules attach a replacement word to some symbols. One generation
replaces every symbol of a word at once by its image: its replacement if it has a rule, and itself
otherwise. What a replacement brings in is not looked at before the next generation.

`Rules.generation` is the plain account of growth. `MeasuredRules.rewriteWithin` computes one
generation symbol by symbol under a ceiling on the length: it stops as soon as the word written so
far is longer than the ceiling, and then reports that length. The length is not counted on the word
but added up from those of the replacements, which are counted before the first generation
(`Rules.measured`). Each step writes the image of one symbol (`Rules.rewriteFrom_cons`).
-/

set_option autoImplicit false

namespace Lindenmayer

/-- A finite sequence of symbols. -/
abbrev Word := List Char

/-- The replacement words of the symbols that have one. -/
abbrev Rules := SymbolTable Word

/-- The replacement words of the symbols that have one, each with its length. -/
abbrev MeasuredRules := SymbolTable (Word × Nat)

/-- Whether a length is above a ceiling, where there is one. -/
def exceeds (length : Nat) : Option Nat → Bool
  | none => false
  | some ceiling => ceiling < length

namespace Rules

/-- What becomes of a symbol in one generation. -/
def image (rules : Rules) (symbol : Char) : Word := (rules.get? symbol).getD [symbol]

/-- What becomes of a word in one generation. -/
def rewrite (rules : Rules) (word : Word) : Word := word.flatMap rules.image

/-- What becomes of a word in a number of generations. -/
def generation (rules : Rules) (start : Word) : Nat → Word
  | 0 => start
  | count + 1 => rules.rewrite (rules.generation start count)

@[simp] theorem rewrite_nil (rules : Rules) : rules.rewrite [] = [] := rfl

@[simp] theorem rewrite_cons (rules : Rules) (symbol : Char) (word : Word) :
    rules.rewrite (symbol :: word) = rules.image symbol ++ rules.rewrite word :=
  List.flatMap_cons

/-- Rewriting works piece by piece. -/
@[simp] theorem rewrite_append (rules : Rules) (first second : Word) :
    rules.rewrite (first ++ second) = rules.rewrite first ++ rules.rewrite second :=
  List.flatMap_append

/-- The rules with the lengths of their replacements. -/
def measured (rules : Rules) : MeasuredRules :=
  rules.map fun replacement ↦ (replacement, replacement.length)

end Rules

/-! ### One generation under a ceiling -/

namespace MeasuredRules

/-- Goes on writing a generation of which the symbols `written`, last first, `length` in number, are
there already. -/
def rewriteFrom (rules : MeasuredRules) (ceiling : Option Nat) :
    Word → (written : Word) → (length : Nat) → Except Nat (Word × Nat)
  | [], written, length => .ok (written.reverse, length)
  | symbol :: word, written, length =>
    let (written, length) :=
      match rules.get? symbol with
      | some (replacement, count) => (replacement.reverseAux written, length + count)
      | none => (symbol :: written, length + 1)
    if exceeds length ceiling then .error length
    else rules.rewriteFrom ceiling word written length

/-- One generation of a word with its length, or the length at which it grew beyond the ceiling. -/
def rewriteWithin (rules : MeasuredRules) (ceiling : Option Nat) (word : Word) :
    Except Nat (Word × Nat) :=
  rules.rewriteFrom ceiling word [] 0

end MeasuredRules

/-- With or without a rule, what is written for a symbol is its image. -/
theorem Rules.rewriteFrom_cons (rules : Rules) (ceiling : Option Nat) (symbol : Char)
    (word written : Word) (length : Nat) :
    rules.measured.rewriteFrom ceiling (symbol :: word) written length =
      if exceeds (length + (rules.image symbol).length) ceiling then
        .error (length + (rules.image symbol).length)
      else
        rules.measured.rewriteFrom ceiling word ((rules.image symbol).reverseAux written)
          (length + (rules.image symbol).length) := by
  rw [MeasuredRules.rewriteFrom, measured, SymbolTable.get?_map, image]
  cases rules.get? symbol <;> rfl

end Lindenmayer
