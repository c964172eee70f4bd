import Lindenmayer.Proofs.Grammar.ClassicTallies
import Lindenmayer.Proofs.Grammar.ExactWalk
import Mathlib.Algebra.QuadraticAlgebra.Basic
import Mathlib.Data.Rat.Defs
import Mathlib.Tactic.FieldSimp
import Mathlib.Tactic.LinearCombination

/-!
# The snowflake refines itself and closes

The snowflake is walked without rounding in the plane of the numbers `x + y w`, where `w` is a
primitive sixth root of unity, a turn by a sixth to the left. With integers for `x` and `y` these
are the Eisenstein integers.

A side of the snowflake is replaced by four. They lead where one side of three times the length
would lead, and leave the direction as it was (`walk_snowflakeSide`), in whatever direction the side
goes. So the walk of a word that is rewritten is the walk of the word itself with steps of three
times the length (`walk_rewrite`), and every fourth point of its trail is a point of that walk
(`getElem?_trail_rewrite`).

`Classic.kochSnowflake_refines_and_closes` says what this means for all generations, with steps of
one and with the steps of the drawing alphabet. These are divided by three from generation to
generation, which makes up for the growth. The alphabet's step is computed by `Classic.powerFrom`,
and `squarings` is the same computation in any monoid, where it gives the power exactly
(`squarings_eq`).
-/

set_option autoImplicit false

namespace Lindenmayer

/-! ### Powers by repeated squaring -/

/-- The computation of `Classic.powerFrom`, for any kind of product. -/
def squarings {M : Type} [Mul M] (product square : M) (exponent : Nat) : M :=
  let product := if exponent % 2 = 1 then product * square else product
  if exponent / 2 = 0 then product else squarings product (square * square) (exponent / 2)
termination_by exponent

theorem Classic.powerFrom_eq (product square : Float32) (exponent : Nat) :
    powerFrom product square exponent = squarings product square exponent := by
  fun_induction powerFrom product square exponent with
  | case1 product square exponent _ hzero =>
    rw [squarings, if_pos hzero]
    rfl
  | case2 product square exponent _ hzero ih =>
    rw [ih]
    conv_rhs => rw [squarings, if_neg hzero]
    rfl

/-- Without rounding the computation gives the power. -/
theorem squarings_eq {M : Type} [Monoid M] (product square : M) (exponent : Nat) :
    squarings product square exponent = product * square ^ exponent := by
  fun_induction squarings product square exponent with
  | case1 product square exponent taken hzero =>
    rcases (by omega : exponent = 0 ∨ exponent = 1) with rfl | rfl
    · simp [taken]
    · simp [taken]
  | case2 product square exponent taken hzero ih =>
    have hsplit : exponent = exponent % 2 + 2 * (exponent / 2) := (Nat.mod_add_div _ _).symm
    rw [ih, ← pow_two, ← pow_mul]
    conv_rhs => rw [hsplit, pow_add, ← mul_assoc]
    congr 1
    rcases Nat.mod_two_eq_zero_or_one exponent with hbit | hbit <;> simp [taken, hbit]

/-! ### Sixths of a turn -/

/-- The numbers `x + y w` with `w * w = w - 1`. -/
abbrev Eisenstein (R : Type) [CommRing R] : Type := QuadraticAlgebra R (-1) 1

/-- The number `w`, a turn by a sixth to the left. -/
def sixthTurn (R : Type) [CommRing R] : (Eisenstein R)ˣ where
  val := ⟨0, 1⟩
  inv := ⟨1, -1⟩
  val_inv := by ext <;> simp [QuadraticAlgebra.re_one, QuadraticAlgebra.im_one]
  inv_val := by ext <;> simp [QuadraticAlgebra.re_one, QuadraticAlgebra.im_one]

theorem sixthTurn_mul_self (R : Type) [CommRing R] :
    (sixthTurn R : Eisenstein R) * sixthTurn R = sixthTurn R - 1 := by
  ext <;> simp [sixthTurn, QuadraticAlgebra.re_one, QuadraticAlgebra.im_one]

namespace Classic

/-! ### One generation -/

/-- What becomes of a side of the snowflake. -/
def snowflakeSide : Word := ['F', '-', 'F', '+', '+', 'F', '-', 'F']

theorem image_snowflakeSide : kochSnowflake.grammar.rules.image 'F' = snowflakeSide := rfl

theorem image_of_ne_move {symbol : Char} (h : symbol ≠ 'F') :
    kochSnowflake.grammar.rules.image symbol = [symbol] := by
  change ((SymbolTable.empty.insert 'F' snowflakeSide).get? symbol).getD [symbol] = [symbol]
  rw [SymbolTable.get?_insert, if_neg h, SymbolTable.get?_empty, Option.getD_none]

/-- The next generation turns as much as the present one. -/
theorem netTurn_rewrite (word : Word) :
    netTurn (kochSnowflake.grammar.rules.rewrite word) = netTurn word := by
  induction word with
  | nil => rfl
  | cons symbol word ih =>
    rw [Rules.rewrite_cons, netTurn_append, ih, netTurn_cons symbol word]
    congr 1
    by_cases hmove : symbol = 'F'
    · rw [hmove]
      rfl
    · rw [image_of_ne_move hmove]

section

variable {R : Type} [CommRing R] {unit : Rˣ} (hunit : (unit : R) * unit = unit - 1) (step : R)

include hunit

theorem unit_add_inv : (unit : R) + ↑unit⁻¹ = 1 := by
  have hinv : (unit : R) * ↑unit⁻¹ = 1 := unit.mul_inv
  linear_combination (↑unit⁻¹ : R) * hunit + (1 - (unit : R)) * hinv

/-- Four sides lead where one side of three times the length leads. -/
theorem walk_snowflakeSide (pose : Pose R) :
    pose.walk unit step snowflakeSide = pose.read unit (3 * step) 'F' := by
  have hsum := unit_add_inv hunit
  have hword : Pose.ofWord unit step snowflakeSide =
      ⟨step * (2 + (unit + ↑unit⁻¹)), 1⟩ := by
    ext
    · simp only [Pose.ofWord, Pose.walk, snowflakeSide, Char.isValue, List.foldl_cons, Pose.read,
        reduceIte, Pose.position_one, Pose.direction_one, Units.val_one, one_mul, zero_add,
        Char.reduceEq, inv_mul_cancel, mul_inv_cancel, List.foldl_nil]
      ring
    · simp [Pose.ofWord, Pose.walk, snowflakeSide, Pose.read]
  rw [Pose.walk_eq_mul, hword, hsum, Pose.read, if_pos rfl]
  ext
  · simp only [Pose.position_mul]
    ring
  · simp only [Pose.direction_mul, mul_one]

/-- A word that is rewritten leads where the word leads with steps of three times the length. -/
theorem walk_rewrite (pose : Pose R) (word : Word) :
    pose.walk unit step (kochSnowflake.grammar.rules.rewrite word) =
      pose.walk unit (3 * step) word := by
  induction word generalizing pose with
  | nil => rfl
  | cons symbol word ih =>
    rw [Rules.rewrite_cons, Pose.walk_append, ih]
    by_cases hmove : symbol = 'F'
    · rw [hmove, image_snowflakeSide, walk_snowflakeSide hunit]
      rfl
    · rw [image_of_ne_move hmove, Pose.walk_cons, Pose.walk_cons,
        Pose.read_of_ne unit step (3 * step) pose hmove]
      rfl

/-- Every fourth point of the trail of a word that is rewritten is a point of the trail of the word
with steps of three times the length. -/
theorem getElem?_trail_rewrite (pose : Pose R) (word : Word) (moves : Nat) :
    (pose.trail unit step (kochSnowflake.grammar.rules.rewrite word))[4 * moves]? =
      (pose.trail unit (3 * step) word)[moves]? := by
  induction word generalizing pose moves with
  | nil => cases moves <;> rfl
  | cons symbol word ih =>
    rw [Rules.rewrite_cons, Pose.trail_append]
    by_cases hmove : symbol = 'F'
    · subst hmove
      have hlength : (pose.trail unit step snowflakeSide).dropLast.length = 4 := by
        rw [List.length_dropLast, Pose.length_trail]
        rfl
      rw [image_snowflakeSide, Pose.trail_move, walk_snowflakeSide hunit]
      cases moves with
      | zero => rfl
      | succ moves =>
        rw [List.getElem?_append_right (by omega), hlength, Nat.mul_succ, Nat.add_sub_cancel, ih,
          List.getElem?_cons_succ]
    · rw [image_of_ne_move hmove, Pose.trail_cons_of_ne unit step pose hmove,
        Pose.trail_cons_of_ne unit (3 * step) pose hmove, Pose.walk_cons,
        Pose.read_of_ne unit step (3 * step) pose hmove]
      exact ih _ moves

/-! ### All generations -/

theorem ofWord_generation_eq (count : Nat) :
    Pose.ofWord unit step (kochSnowflake.generation count) =
      Pose.ofWord unit (3 ^ count * step) kochSnowflake.grammar.start := by
  induction count generalizing step with
  | zero => rw [pow_zero, one_mul]; rfl
  | succ count ih =>
    have hrewrite := walk_rewrite hunit step 1 (kochSnowflake.generation count)
    rw [pow_succ, mul_assoc, ← ih (3 * step)]
    exact hrewrite

/-- The three sides of the triangle lead back to where they begin. -/
theorem position_triangle :
    (Pose.ofWord unit step kochSnowflake.grammar.start).position = 0 := by
  have hstart : kochSnowflake.grammar.start = ['F', '+', '+', 'F', '+', '+', 'F'] := rfl
  have hposition : (Pose.ofWord unit step kochSnowflake.grammar.start).position =
      step * (1 + (unit : R) * unit + (unit * unit) * (unit * unit)) := by
    rw [hstart]
    simp only [Pose.ofWord, Pose.walk, Char.isValue, List.foldl_cons, Pose.read, reduceIte,
      Pose.position_one, Pose.direction_one, Units.val_one, one_mul, zero_add, Char.reduceEq,
      Units.val_mul, List.foldl_nil]
    ring
  rw [hposition, hunit]
  linear_combination step * hunit

end

theorem netTurn_generation (count : Nat) : netTurn (kochSnowflake.generation count) = 4 := by
  induction count with
  | zero => rfl
  | succ count ih => rw [← ih]; exact netTurn_rewrite (kochSnowflake.generation count)

theorem length_trail_generation {R : Type} [CommRing R] (unit : Rˣ) (step : R) (pose : Pose R)
    (count : Nat) :
    (pose.trail unit step (kochSnowflake.generation count)).length = 3 * 4 ^ count + 1 := by
  rw [Pose.length_trail, ← tally_moveWeight, (tallies_kochSnowflake count).1]

/-- There is a point of the trail for every number of moves that the generation has. -/
theorem exists_point {R : Type} [CommRing R] (unit : Rˣ) (step : R) (pose : Pose R)
    {count moves : Nat} (hle : moves ≤ 3 * 4 ^ count) :
    ∃ point, (pose.trail unit step (kochSnowflake.generation count))[moves]? = some point := by
  have hlength := length_trail_generation unit step pose count
  exact ⟨_, List.getElem?_eq_getElem (by omega)⟩

/-- The walk of a generation ends where it begins, having turned by four sixths. -/
theorem ofWord_generation {R : Type} [CommRing R] {unit : Rˣ}
    (hunit : (unit : R) * unit = unit - 1) (step : R) (count : Nat) :
    Pose.ofWord unit step (kochSnowflake.generation count) = ⟨0, unit ^ 4⟩ := by
  ext
  · rw [ofWord_generation_eq hunit, position_triangle hunit]
  · rw [Pose.direction_ofWord, netTurn_generation]
    rfl

theorem getLast?_trail_generation {R : Type} [CommRing R] {unit : Rˣ}
    (hunit : (unit : R) * unit = unit - 1) (step : R) (count : Nat) :
    (Pose.trail unit step 1 (kochSnowflake.generation count)).getLast? = some 0 := by
  have hlast := Pose.getLast?_trail unit step 1 (kochSnowflake.generation count)
  rwa [← Pose.ofWord, ofWord_generation hunit] at hlast

/-- With steps of one length, the points of a generation are those of the one before, three times as
far. -/
theorem trail_generation_succ {R : Type} [CommRing R] {unit : Rˣ}
    (hunit : (unit : R) * unit = unit - 1) (count moves : Nat) :
    (Pose.trail unit 1 1 (kochSnowflake.generation (count + 1)))[4 * moves]? =
      (Pose.trail unit 1 1 (kochSnowflake.generation count))[moves]?.map (3 * ·) := by
  have hfar := Pose.trail_mul unit (1 : R) 3 1 (kochSnowflake.generation count)
  rw [Pose.position_one, mul_zero] at hfar
  rw [← List.getElem?_map, ← hfar]
  exact getElem?_trail_rewrite hunit 1 1 (kochSnowflake.generation count) moves

/-- The length of a side in a generation, when the side of the triangle has length one. -/
def exactStep (count : Nat) : Eisenstein ℚ := algebraMap ℚ (Eisenstein ℚ) (1 / 3 ^ count)

theorem three_mul_exactStep (count : Nat) : 3 * exactStep (count + 1) = exactStep count := by
  have hthree : (3 : Eisenstein ℚ) = algebraMap ℚ (Eisenstein ℚ) 3 := (map_ofNat _ 3).symm
  rw [exactStep, exactStep, hthree, ← map_mul, pow_succ]
  congr 1
  field_simp

/-- The snowflake refines itself and closes, in every generation.

First it is walked in the Eisenstein integers with steps of one. The points of the walk of a
generation are the start and the ends of its `3 * 4 ^ count` moves. Three times each of them is the
point of the next generation with a number four times as large. The last point is the start again,
and the left turns less the right turns are four, so that the last direction is `w ^ 4`.

Then it is walked with the steps of the drawing alphabet, which moves by one over a power of three
and turns by a third of half a turn. In exact arithmetic the power is that of the generation. With
these steps every generation passes through all points of the one before, in their order, and its
first and its last point are the start. -/
theorem kochSnowflake_refines_and_closes (count : Nat) :
    let points (word : Word) := Pose.trail (sixthTurn ℤ) 1 1 word
    let drawn (count : Nat) (word : Word) := Pose.trail (sixthTurn ℚ) (exactStep count) 1 word
    ∃ word next, (kochSnowflake.derive count).result = .ok word ∧
      (kochSnowflake.derive (count + 1)).result = .ok next ∧
      (points word).length = 3 * 4 ^ count + 1 ∧
      (∀ moves ≤ 3 * 4 ^ count, ∃ point, (points word)[moves]? = some point ∧
        (points next)[4 * moves]? = some (3 * point)) ∧
      (points word)[0]? = some 0 ∧ (points word)[3 * 4 ^ count]? = some 0 ∧
      (word.count '+' - word.count '-' : ℤ) = 4 ∧
      (Pose.ofWord (sixthTurn ℤ) 1 word).direction = sixthTurn ℤ ^ 4 ∧
      (∃ alphabet, kochSnowflake.alphabet? count = some alphabet ∧
        alphabet.commands.get? 'F' = some (.forward (1 / squarings 1 3 count)) ∧
        alphabet.commands.get? '+' = some (.turn Single.thirdPi) ∧
        alphabet.commands.get? '-' = some (.turn (-Single.thirdPi)) ∧
        exactStep count = algebraMap ℚ (Eisenstein ℚ) (1 / squarings 1 3 count)) ∧
      (∀ moves ≤ 3 * 4 ^ count, ∃ point, (drawn count word)[moves]? = some point ∧
        (drawn (count + 1) next)[4 * moves]? = some point) ∧
      (drawn count word).head? = some 0 ∧ (drawn count word).getLast? = some 0 := by
  intro points drawn
  have hinteger := sixthTurn_mul_self ℤ
  have hrational := sixthTurn_mul_self ℚ
  have hlength := length_trail_generation (sixthTurn ℤ) 1 1 count
  have hlast := getLast?_trail_generation hinteger 1 count
  refine ⟨_, _, kochSnowflake.result_derive count, kochSnowflake.result_derive (count + 1),
    hlength, fun moves hle ↦ ?_, ?_, ?_, netTurn_generation count, ?_, ?_,
    fun moves hle ↦ ?_, ?_, ?_⟩
  · obtain ⟨point, hpoint⟩ := exists_point (sixthTurn ℤ) 1 1 hle
    refine ⟨point, hpoint, ?_⟩
    rw [trail_generation_succ hinteger, hpoint, Option.map_some]
  · exact Pose.getElem?_trail_zero (sixthTurn ℤ) 1 1 _
  · rwa [List.getLast?_eq_getElem?, hlength, Nat.add_sub_cancel] at hlast
  · rw [ofWord_generation hinteger]
  · refine ⟨_, rfl, ?_, rfl, rfl, ?_⟩
    · rw [← powerFrom_eq]
      rfl
    · rw [squarings_eq, one_mul, exactStep]
  · obtain ⟨point, hpoint⟩ := exists_point (sixthTurn ℚ) (exactStep count) 1 hle
    refine ⟨point, hpoint, ?_⟩
    rw [← hpoint, ← three_mul_exactStep]
    exact getElem?_trail_rewrite hrational (exactStep (count + 1)) 1
      (kochSnowflake.generation count) moves
  · rw [List.head?_eq_getElem?]
    exact Pose.getElem?_trail_zero (sixthTurn ℚ) (exactStep count) 1 _
  · exact getLast?_trail_generation hrational (exactStep count) count

end Classic

end Lindenmayer
