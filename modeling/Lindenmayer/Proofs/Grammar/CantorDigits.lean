import Lindenmayer.Proofs.Grammar.ClassicTallies
import Mathlib.Data.Nat.Digits.Lemmas

/-!
# The Cantor set spells the digits of its indices

Under rules whose images all have the same length, the symbol at an index of the next generation is
found without looking at the whole word: the quotient of the index by that length tells which symbol
it comes from, and the remainder its place in the image (`Rules.getElem?_rewrite_of_width`).

`Classic.cantorSet` replaces every symbol by three, so its generations are read off the digits of
the index in base three. A gap is cut in the middle third of every interval, and whatever comes out
of a gap is a gap. `Classic.cantorSet_spells_digits` says that the gaps are the indices with a digit
one.
-/

set_option autoImplicit false

namespace Lindenmayer

namespace Rules

/-! ### Images of one length -/

variable {rules : Rules} {width : Nat} {word : Word}

theorem length_rewrite_of_width (hwidth : ∀ symbol ∈ word, (rules.image symbol).length = width) :
    (rules.rewrite word).length = width * word.length := by
  induction word with
  | nil => rfl
  | cons symbol word ih =>
    obtain ⟨hsymbol, hword⟩ := List.forall_mem_cons.mp hwidth
    rw [rewrite_cons, List.length_append, hsymbol, ih hword, List.length_cons, Nat.mul_succ,
      Nat.add_comm]

/-- Where all images have the same length, they follow each other at multiples of it. -/
theorem getElem?_rewrite_of_width (hwidth : ∀ symbol ∈ word, (rules.image symbol).length = width)
    (index : Nat) {place : Nat} (hplace : place < width) :
    (rules.rewrite word)[width * index + place]? =
      word[index]?.bind fun symbol ↦ (rules.image symbol)[place]? := by
  induction word generalizing index with
  | nil => rfl
  | cons symbol word ih =>
    obtain ⟨hsymbol, hword⟩ := List.forall_mem_cons.mp hwidth
    rw [rewrite_cons]
    cases index with
    | zero =>
      rw [Nat.mul_zero, Nat.zero_add, List.getElem?_append_left (hplace.trans_eq hsymbol.symm)]
      rfl
    | succ index =>
      have hskip : width * (index + 1) + place - width = width * index + place := by
        rw [Nat.mul_succ]
        omega
      have hbeyond : width ≤ width * (index + 1) + place :=
        (Nat.le_mul_of_pos_right width index.succ_pos).trans (Nat.le_add_right _ _)
      rw [List.getElem?_append_right (hsymbol.trans_le hbeyond), hsymbol, hskip, ih hword,
        List.getElem?_cons_succ]

end Rules

namespace Classic

/-! ### Digits in base three -/

/-- A digit is either the last one or a digit of the quotient. -/
theorem one_mem_digits_iff (quotient : Nat) {rest : Nat} (hrest : rest < 3) :
    1 ∈ Nat.digits 3 (3 * quotient + rest) ↔ rest = 1 ∨ 1 ∈ Nat.digits 3 quotient := by
  by_cases hzero : rest = 0 ∧ quotient = 0
  · obtain ⟨rfl, rfl⟩ := hzero
    simp
  · have hne : rest ≠ 0 ∨ quotient ≠ 0 := not_and_or.mp hzero
    rw [Nat.add_comm, Nat.digits_add 3 (by decide) rest quotient hrest hne, List.mem_cons, eq_comm]

/-- The symbol of the Cantor set at an index: `B` for a gap and `A` for what is left. -/
def cantorSymbol (index : Nat) : Char := if 1 ∈ Nat.digits 3 index then 'B' else 'A'

/-- The symbols that come out of a symbol of the Cantor set. -/
theorem getElem?_image_cantorSymbol (quotient : Nat) {rest : Nat} (hrest : rest < 3) :
    (cantorSet.grammar.rules.image (cantorSymbol quotient))[rest]? =
      some (cantorSymbol (3 * quotient + rest)) := by
  have himageA : cantorSet.grammar.rules.image 'A' = ['A', 'B', 'A'] := rfl
  have himageB : cantorSet.grammar.rules.image 'B' = ['B', 'B', 'B'] := rfl
  rw [cantorSymbol, cantorSymbol, if_congr (one_mem_digits_iff quotient hrest) rfl rfl]
  by_cases hgap : 1 ∈ Nat.digits 3 quotient
  · rw [if_pos hgap, if_pos (.inr hgap), himageB]
    interval_cases rest <;> rfl
  · rw [if_neg hgap, himageA]
    interval_cases rest <;> simp [hgap]

/-! ### All generations -/

theorem length_image_cantorSet (count : Nat) :
    ∀ symbol ∈ cantorSet.generation count,
      (cantorSet.grammar.rules.image symbol).length = 3 := by
  have hlength : ∀ symbol ∈ cantorSet.symbols,
      (cantorSet.grammar.rules.image symbol).length = 3 :=
    List.forall_iff_forall_mem.mp (by decide)
  exact fun symbol hsymbol ↦ hlength symbol (cantorSet.generation_subset_symbols count hsymbol)

theorem length_cantorSet (count : Nat) : (cantorSet.generation count).length = 3 ^ count := by
  induction count with
  | zero => rfl
  | succ count ih =>
    rw [generation, Rules.generation_succ, ← generation,
      Rules.length_rewrite_of_width (length_image_cantorSet count), ih, pow_succ, Nat.mul_comm]

theorem getElem?_cantorSet {count index : Nat} (hindex : index < 3 ^ count) :
    (cantorSet.generation count)[index]? = some (cantorSymbol index) := by
  induction count generalizing index with
  | zero =>
    obtain rfl : index = 0 := by simpa using hindex
    rfl
  | succ count ih =>
    have hdivision : index = 3 * (index / 3) + index % 3 := (Nat.div_add_mod index 3).symm
    have hrest : index % 3 < 3 := Nat.mod_lt index (by decide)
    have hquotient : index / 3 < 3 ^ count := by
      rw [pow_succ] at hindex
      exact Nat.div_lt_of_lt_mul (by rwa [Nat.mul_comm])
    conv_lhs => rw [hdivision]
    rw [generation, Rules.generation_succ, ← generation,
      Rules.getElem?_rewrite_of_width (length_image_cantorSet count) _ hrest, ih hquotient,
      Option.bind_some, getElem?_image_cantorSymbol _ hrest, ← hdivision]

/-- Every generation of the Cantor set has three times as many symbols as the one before, and the
digits of an index in base three tell the symbol that stands there: `A` if none of them is one, and
`B` otherwise. -/
theorem cantorSet_spells_digits (count : Nat) :
    ∃ word, (cantorSet.derive count).result = .ok word ∧ word.length = 3 ^ count ∧
      ∀ index < 3 ^ count,
        word[index]? = some (if 1 ∈ Nat.digits 3 index then 'B' else 'A') :=
  ⟨cantorSet.generation count, cantorSet.result_derive count, length_cantorSet count,
    fun _ hindex ↦ getElem?_cantorSet hindex⟩

end Classic

end Lindenmayer
