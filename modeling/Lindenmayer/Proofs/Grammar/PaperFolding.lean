import Lindenmayer.Proofs.Grammar.ClassicTallies
import Lindenmayer.Proofs.Grammar.ExactWalk
import Mathlib.Data.Nat.Factorization.Basic
import Mathlib.NumberTheory.Zsqrtd.GaussianInt
import Mathlib.Tactic.LinearCombination
import Mathlib.Tactic.Ring

/-!
# The dragon is a folded strip of paper

A strip of paper that is folded in half again and again, always to the same side, and then opened
with a right angle in every crease is a dragon curve. The crease between two pieces of the strip
depends only on its number: it turns left if the odd part of the number leaves the rest 1 when
divided by four, and right if it leaves the rest 3 (`crease`).

The creases of `Classic.dragonCurve` are the turns between its moves (`netTurn`). A letter grows at
both ends, so a turn between two moves is put together from symbols that several generations have
written. The symbols before the first move and those behind the last one therefore have to be kept
apart from the creases of what a letter has grown to: `Classic.Folded` says which turns are found
between the moves of what grows out of `X`, which are found in what grows out of `Y`, and that the
turns behind the last move of the first cancel those before the first move of the second.

The same two words, walked in the Gaussian integers, end in opposite places (`Classic.Unfolded`), so
that another generation adds the walk of the first letter once more, turned by a right angle.
`Classic.dragonCurve_folds` puts the creases and the end of the walk together.
-/

set_option autoImplicit false

namespace Lindenmayer

/-! ### Creases -/

/-- The turn of a crease, counted from one along the strip: `1` to the left, `-1` to the right. -/
def crease (number : Nat) : Int := if ordCompl[2] number % 4 = 1 then 1 else -1

theorem crease_two_pow_mul (exponent : Nat) {odd : Nat} (h : ¬ 2 ∣ odd) :
    crease (2 ^ exponent * odd) = if odd % 4 = 1 then 1 else -1 := by
  rw [crease, Nat.ordCompl_pow_mul_of_not_dvd exponent Nat.prime_two h]

/-- The crease in the middle of a strip turns left. -/
theorem crease_two_pow (exponent : Nat) : crease (2 ^ exponent) = 1 := by
  rw [← Nat.mul_one (2 ^ exponent), crease_two_pow_mul exponent (by decide), if_pos rfl]

/-- The crease in the middle of the second half of a longer strip turns right. -/
theorem crease_three_mul_two_pow (exponent : Nat) :
    crease (2 ^ (exponent + 1) + 2 ^ exponent) = -1 := by
  have hthree : 2 ^ (exponent + 1) + 2 ^ exponent = 2 ^ exponent * 3 := by rw [pow_succ]; omega
  rw [hthree, crease_two_pow_mul exponent (by decide), if_neg (by decide)]

/-- The creases between the multiples of a power of two recur after its double. -/
theorem crease_add_of_not_dvd {exponent number : Nat} (h : ¬ 2 ^ exponent ∣ number) :
    crease (2 ^ (exponent + 1) + number) = crease number := by
  have hne : number ≠ 0 := by
    rintro rfl
    exact h (Nat.dvd_zero _)
  obtain ⟨twos, odd, hodd, rfl⟩ := Nat.exists_eq_two_pow_mul_odd hne
  have hlt : twos < exponent := by
    by_contra hle
    exact h ((Nat.pow_dvd_pow 2 (Nat.le_of_not_lt hle)).mul_right odd)
  obtain ⟨more, rfl⟩ : ∃ more, exponent = twos + 1 + more := ⟨exponent - twos - 1, by omega⟩
  have hsum : 2 ^ (twos + 1 + more + 1) + 2 ^ twos * odd = 2 ^ twos * (4 * 2 ^ more + odd) := by
    ring
  have hodd' : odd % 2 = 1 := Nat.odd_iff.mp hodd
  have hmore : ¬ 2 ∣ 4 * 2 ^ more + odd := by omega
  have hmod : (4 * 2 ^ more + odd) % 4 = odd % 4 := by omega
  rw [hsum, crease_two_pow_mul twos hmore, crease_two_pow_mul twos (by omega), hmod]

/-! ### Turns between moves -/

/-- The net turn between a move and the next one. The moves are counted from one, so the symbols
before the first move are number zero. -/
def turnAfter (word : Word) (moves : Nat) : Int :=
  netTurn ((word.splitOn 'F').getD moves [])

@[simp] theorem turnAfter_nil (moves : Nat) : turnAfter [] moves = 0 := by
  cases moves <;> rfl

/-- A move at the front is a piece of its own. -/
@[simp] theorem turnAfter_move_zero (word : Word) : turnAfter ('F' :: word) 0 = 0 := by
  simp [turnAfter, List.splitOn_cons_eq_if_modifyHead]

@[simp] theorem turnAfter_move_succ (word : Word) (moves : Nat) :
    turnAfter ('F' :: word) (moves + 1) = turnAfter word moves := by
  simp [turnAfter, List.splitOn_cons_eq_if_modifyHead]

/-- Any other symbol at the front belongs to what is before the first move. -/
theorem turnAfter_cons {symbol : Char} (h : symbol ≠ 'F') (word : Word) (moves : Nat) :
    turnAfter (symbol :: word) moves =
      (if moves = 0 then netTurn [symbol] else 0) + turnAfter word moves := by
  obtain ⟨piece, pieces, hpieces⟩ := List.exists_cons_of_ne_nil (List.splitOn_ne_nil 'F' word)
  rw [turnAfter, turnAfter, List.splitOn_cons_eq_if_modifyHead, if_neg (by simpa using h), hpieces]
  cases moves with
  | zero => simpa using netTurn_cons symbol piece
  | succ moves => simp

/-- Between two words the turns behind the last move of the first and those before the first move
of the second come together. -/
theorem turnAfter_append (first second : Word) (moves : Nat) :
    turnAfter (first ++ second) moves =
      turnAfter first moves +
        if first.count 'F' ≤ moves then turnAfter second (moves - first.count 'F') else 0 := by
  induction first generalizing moves with
  | nil => simp
  | cons symbol first ih =>
    rw [List.cons_append]
    by_cases hmove : symbol = 'F'
    · subst hmove
      rw [List.count_cons_self]
      cases moves with
      | zero => simp
      | succ moves => simp [ih]
    · rw [turnAfter_cons hmove, turnAfter_cons hmove, ih, List.count_cons_of_ne hmove, add_assoc]

/-- Behind the last move there are no more pieces. -/
theorem turnAfter_of_lt {word : Word} {moves : Nat} (h : word.count 'F' < moves) :
    turnAfter word moves = 0 := by
  induction word generalizing moves with
  | nil => exact turnAfter_nil moves
  | cons symbol word ih =>
    by_cases hmove : symbol = 'F'
    · subst hmove
      rw [List.count_cons_self] at h
      obtain ⟨moves, rfl⟩ : ∃ fewer, moves = fewer + 1 := ⟨moves - 1, by omega⟩
      rw [turnAfter_move_succ, ih (by omega)]
    · rw [List.count_cons_of_ne hmove] at h
      rw [turnAfter_cons hmove, if_neg (by omega), ih h, add_zero]

variable {symbol : Char} {first : Word} {moves : Nat}

/-- A turn between two words comes behind all moves of the first. -/
theorem turnAfter_append_turn_of_lt (h : moves < first.count 'F') (second : Word) :
    turnAfter (first ++ [symbol] ++ second) moves = turnAfter first moves := by
  rw [List.append_assoc, turnAfter_append, if_neg (by omega), add_zero]

/-- A turn between two words is added to what the first ends with and the second begins with. -/
theorem turnAfter_append_turn_of_eq (hsymbol : symbol ≠ 'F') (h : first.count 'F' = moves)
    (second : Word) :
    turnAfter (first ++ [symbol] ++ second) moves =
      turnAfter first moves + netTurn [symbol] + turnAfter second 0 := by
  rw [List.append_assoc, List.singleton_append, turnAfter_append, if_pos h.le, h, Nat.sub_self,
    turnAfter_cons hsymbol, if_pos rfl, add_assoc]

/-- A turn between two words comes before all moves of the second. -/
theorem turnAfter_append_turn_of_gt (hsymbol : symbol ≠ 'F') (hpos : moves ≠ 0) (second : Word) :
    turnAfter (first ++ [symbol] ++ second) (first.count 'F' + moves) = turnAfter second moves := by
  rw [List.append_assoc, List.singleton_append, turnAfter_append, turnAfter_of_lt (by omega),
    if_pos (by omega), Nat.add_sub_cancel_left, turnAfter_cons hsymbol, if_neg hpos, zero_add,
    zero_add]

/-- A word with moves is cut by them into one piece more than there are moves. -/
theorem length_splitOn_move (word : Word) : (word.splitOn 'F').length = word.count 'F' + 1 := by
  induction word with
  | nil => rfl
  | cons symbol word ih =>
    rw [List.splitOn_cons_eq_if_modifyHead]
    by_cases hmove : symbol = 'F'
    · subst hmove
      simpa using ih
    · simpa [hmove] using ih

namespace Classic

/-! ### What the letters of the dragon grow to -/

/-- What a letter of the dragon has become after a number of generations. -/
def dragonGrowth (letter : Char) (count : Nat) : Word :=
  dragonCurve.grammar.rules.generation [letter] count

theorem generation_dragonCurve (count : Nat) :
    dragonCurve.generation count = ['F'] ++ dragonGrowth 'X' count := by
  have hstart : dragonCurve.grammar.start = ['F'] ++ ['X'] := rfl
  rw [generation, hstart, Rules.generation_append, Rules.generation_eq_self _ ['F'] rfl,
    dragonGrowth]

/-- The first letter becomes itself, a left turn, the second letter, a move and a left turn. -/
theorem dragonGrowth_X_succ (count : Nat) :
    dragonGrowth 'X' (count + 1) =
      dragonGrowth 'X' count ++ ['+'] ++ dragonGrowth 'Y' count ++ ['F', '+'] := by
  have himage :
      dragonCurve.grammar.rules.rewrite ['X'] = ['X'] ++ ['+'] ++ ['Y'] ++ ['F', '+'] := rfl
  rw [dragonGrowth, Rules.generation_succ_start, himage, Rules.generation_append,
    Rules.generation_append, Rules.generation_append, Rules.generation_eq_self _ ['+'] rfl,
    Rules.generation_eq_self _ ['F', '+'] rfl, dragonGrowth, dragonGrowth]

/-- The second letter becomes a right turn, a move, the first letter, a right turn and itself. -/
theorem dragonGrowth_Y_succ (count : Nat) :
    dragonGrowth 'Y' (count + 1) =
      ['-', 'F'] ++ dragonGrowth 'X' count ++ ['-'] ++ dragonGrowth 'Y' count := by
  have himage :
      dragonCurve.grammar.rules.rewrite ['Y'] = ['-', 'F'] ++ ['X'] ++ ['-'] ++ ['Y'] := rfl
  rw [dragonGrowth, Rules.generation_succ_start, himage, Rules.generation_append,
    Rules.generation_append, Rules.generation_append, Rules.generation_eq_self _ ['-', 'F'] rfl,
    Rules.generation_eq_self _ ['-'] rfl, dragonGrowth, dragonGrowth]

/-- Both letters bring in all moves but one that the dragon has. -/
theorem count_move_dragonGrowth (count : Nat) :
    (dragonGrowth 'X' count).count 'F' + 1 = 2 ^ count ∧
      (dragonGrowth 'Y' count).count 'F' + 1 = 2 ^ count := by
  induction count with
  | zero => decide
  | succ count ih =>
    obtain ⟨hX, hY⟩ := ih
    have hboth : ['F', '+'].count 'F' = 1 ∧ ['-', 'F'].count 'F' = 1 ∧ ['+'].count 'F' = 0 ∧
        ['-'].count 'F' = 0 := by decide
    rw [dragonGrowth_X_succ, dragonGrowth_Y_succ, pow_succ]
    simp only [List.count_append, hboth]
    omega

/-! ### The creases -/

/-- What is found between the moves of what both letters have become after `count` generations. -/
structure Folded (count : Nat) : Prop where
  /-- One move stands before the first letter, so its first turn is at the first crease. -/
  turns_X : ∀ moves, moves + 1 < 2 ^ count →
    turnAfter (dragonGrowth 'X' count) moves = crease (moves + 1)
  /-- The second letter has the creases of the second half of the strip. -/
  turns_Y : ∀ moves, 1 ≤ moves → moves < 2 ^ count →
    turnAfter (dragonGrowth 'Y' count) moves = crease (2 ^ count + moves)
  /-- Where the second letter follows the first one, their outer turns cancel. -/
  outer : ∀ moves, moves + 1 = 2 ^ count →
    turnAfter (dragonGrowth 'X' count) moves + turnAfter (dragonGrowth 'Y' count) 0 = 0

theorem folded_zero : Folded 0 where
  turns_X moves h := by
    rw [pow_zero] at h
    omega
  turns_Y moves hpos h := by
    rw [pow_zero] at h
    omega
  outer moves h := by
    obtain rfl : moves = 0 := by simpa using h
    rfl

/-- What the second letter becomes begins with a right turn and a move. -/
theorem turnAfter_dragonGrowth_Y_succ (count : Nat) :
    turnAfter (dragonGrowth 'Y' (count + 1)) 0 = -1 ∧
      ∀ moves, turnAfter (dragonGrowth 'Y' (count + 1)) (moves + 1) =
        turnAfter (dragonGrowth 'X' count ++ ['-'] ++ dragonGrowth 'Y' count) moves := by
  have hgrowth : dragonGrowth 'Y' (count + 1) =
      '-' :: 'F' :: (dragonGrowth 'X' count ++ ['-'] ++ dragonGrowth 'Y' count) := by
    rw [dragonGrowth_Y_succ]
    simp only [List.append_assoc, List.cons_append, List.nil_append]
  have hturn : netTurn ['-'] = -1 := by decide
  rw [hgrowth]
  refine ⟨?_, fun moves ↦ ?_⟩
  · rw [turnAfter_cons (by decide), if_pos rfl, hturn, turnAfter_move_zero, add_zero]
  · rw [turnAfter_cons (by decide), if_neg (Nat.succ_ne_zero moves), turnAfter_move_succ, zero_add]

/-- The last move of what the first letter becomes is followed by a left turn. -/
theorem turnAfter_append_last (word : Word) :
    turnAfter (word ++ ['F', '+']) (word.count 'F' + 1) = 1 ∧
      ∀ moves, moves ≤ word.count 'F' →
        turnAfter (word ++ ['F', '+']) moves = turnAfter word moves := by
  refine ⟨?_, fun moves hle ↦ ?_⟩
  · have hlast : turnAfter ['F', '+'] 1 = 1 := by decide
    rw [turnAfter_append, turnAfter_of_lt (Nat.lt_succ_self _), if_pos (Nat.le_succ _),
      Nat.add_sub_cancel_left, hlast, zero_add]
  · rw [turnAfter_append]
    rcases hle.eq_or_lt with rfl | hlt
    · rw [Nat.sub_self, turnAfter_move_zero, ite_self, add_zero]
    · rw [if_neg (Nat.not_le_of_lt hlt), add_zero]

/-- Folding once more puts a crease between two halves that are there already. -/
theorem Folded.succ {count : Nat} (h : Folded count) : Folded (count + 1) := by
  obtain ⟨hX, hY⟩ := count_move_dragonGrowth count
  obtain ⟨hturnsX, hturnsY, houter⟩ := h
  obtain ⟨hfront, hbehind⟩ := turnAfter_dragonGrowth_Y_succ count
  obtain ⟨hlast, hbefore⟩ := turnAfter_append_last (dragonGrowth 'Y' count)
  have hpow : 2 ^ (count + 1) = 2 ^ count + 2 ^ count := by rw [pow_succ, mul_two]
  have hgrowth : dragonGrowth 'X' (count + 1) =
      dragonGrowth 'X' count ++ ['+'] ++ (dragonGrowth 'Y' count ++ ['F', '+']) := by
    rw [dragonGrowth_X_succ, List.append_assoc _ (dragonGrowth 'Y' count)]
  have hsplit {moves : Nat} (hle : 2 ^ count ≤ moves + 1) : ∃ later,
      moves = (dragonGrowth 'X' count).count 'F' + later ∧ moves + 1 = 2 ^ count + later :=
    ⟨moves + 1 - 2 ^ count, by omega, by omega⟩
  refine ⟨fun moves hlt ↦ ?_, fun moves hpos hlt ↦ ?_, fun moves hmoves ↦ ?_⟩
  · rw [hgrowth]
    rcases Nat.lt_trichotomy (moves + 1) (2 ^ count) with hfirst | hmiddle | hsecond
    · rw [turnAfter_append_turn_of_lt (by omega), hturnsX moves hfirst]
    · have hnet : netTurn ['+'] = 1 := by decide
      have hcancel := houter moves hmiddle
      rw [turnAfter_append_turn_of_eq (by decide) (by omega), hbefore 0 (Nat.zero_le _), hnet,
        hmiddle, crease_two_pow]
      omega
    · obtain ⟨later, hlater, hmoves⟩ := hsplit hsecond.le
      rw [hmoves, hlater, turnAfter_append_turn_of_gt (by decide) (by omega),
        hbefore later (by omega), hturnsY later (by omega) (by omega)]
  · obtain ⟨moves, rfl⟩ : ∃ fewer, moves = fewer + 1 := ⟨moves - 1, by omega⟩
    rw [hbehind]
    rcases Nat.lt_trichotomy (moves + 1) (2 ^ count) with hfirst | hmiddle | hsecond
    · have hdvd : ¬ 2 ^ count ∣ moves + 1 := Nat.not_dvd_of_pos_of_lt (by omega) hfirst
      rw [turnAfter_append_turn_of_lt (by omega), hturnsX moves hfirst, crease_add_of_not_dvd hdvd]
    · have hnet : netTurn ['-'] = -1 := by decide
      have hcancel := houter moves hmiddle
      rw [turnAfter_append_turn_of_eq (by decide) (by omega), hnet, hmiddle,
        crease_three_mul_two_pow]
      omega
    · obtain ⟨later, hlater, hmoves⟩ := hsplit hsecond.le
      have hdvd : ¬ 2 ^ count ∣ 2 ^ count + later :=
        (Nat.dvd_add_right (Nat.dvd_refl _)).not.mpr
          (Nat.not_dvd_of_pos_of_lt (by omega) (by omega))
      rw [hmoves, crease_add_of_not_dvd hdvd, hlater,
        turnAfter_append_turn_of_gt (by decide) (by omega), hturnsY later (by omega) (by omega)]
  · obtain ⟨later, hlater, -⟩ := hsplit (by omega : 2 ^ count ≤ moves + 1)
    have hend : later = (dragonGrowth 'Y' count).count 'F' + 1 := by omega
    rw [hgrowth, hlater, turnAfter_append_turn_of_gt (by decide) (by omega), hend, hlast, hfront]
    rfl

theorem folded (count : Nat) : Folded count := by
  induction count with
  | zero => exact folded_zero
  | succ count ih => exact ih.succ

/-! ### The end of the walk -/

/-- A quarter turn to the left. -/
def quarterTurn : GaussianIntˣ where
  val := ⟨0, 1⟩
  inv := ⟨0, -1⟩
  val_inv := by decide
  inv_val := by decide

/-- The walk of a word with quarter turns and moves of two. -/
def quarterWalk (word : Word) : Pose GaussianInt := Pose.ofWord quarterTurn 2 word

theorem quarterWalk_append (first second : Word) :
    quarterWalk (first ++ second) = quarterWalk first * quarterWalk second :=
  Pose.ofWord_append quarterTurn 2 first second

theorem quarterTurn_mul_self : (quarterTurn : GaussianInt) * quarterTurn = -1 := by decide

theorem quarterWalk_dragonGrowth_X_succ (count : Nat) :
    quarterWalk (dragonGrowth 'X' (count + 1)) =
      quarterWalk (dragonGrowth 'X' count) * ⟨0, quarterTurn⟩ *
        quarterWalk (dragonGrowth 'Y' count) * ⟨2, quarterTurn⟩ := by
  have hturn : quarterWalk ['+'] = ⟨0, quarterTurn⟩ := Pose.ext (by decide) (by decide)
  have hmove : quarterWalk ['F', '+'] = ⟨2, quarterTurn⟩ := Pose.ext (by decide) (by decide)
  rw [dragonGrowth_X_succ, quarterWalk_append, quarterWalk_append, quarterWalk_append, hturn, hmove]

theorem quarterWalk_dragonGrowth_Y_succ (count : Nat) :
    quarterWalk (dragonGrowth 'Y' (count + 1)) =
      ⟨-quarterTurn * 2, -quarterTurn⟩ * quarterWalk (dragonGrowth 'X' count) *
        ⟨0, -quarterTurn⟩ * quarterWalk (dragonGrowth 'Y' count) := by
  have hturn : quarterWalk ['-'] = ⟨0, -quarterTurn⟩ := Pose.ext (by decide) (by decide)
  have hmove : quarterWalk ['-', 'F'] = ⟨-quarterTurn * 2, -quarterTurn⟩ :=
    Pose.ext (by decide) (by decide)
  rw [dragonGrowth_Y_succ, quarterWalk_append, quarterWalk_append, quarterWalk_append, hturn, hmove]

/-- How the walks of both letters end after `count` generations, that of the first letter starting
from the end of the move before it. -/
structure Unfolded (count : Nat) : Prop where
  facing : ((quarterWalk (dragonGrowth 'X' count)).direction *
    (quarterWalk (dragonGrowth 'Y' count)).direction : GaussianInt) = 1
  /-- The first walk faces backwards at its end, unless it has not moved yet. -/
  back : (quarterWalk (dragonGrowth 'X' count)).direction *
      (quarterWalk (dragonGrowth 'X' count)).position =
    -(quarterWalk (dragonGrowth 'X' count)).position
  opposite : (quarterWalk (dragonGrowth 'Y' count)).position =
    -(quarterWalk (dragonGrowth 'X' count)).position
  position : 2 + (quarterWalk (dragonGrowth 'X' count)).position =
    2 * (1 + (quarterTurn : GaussianInt)) ^ count

theorem unfolded_zero : Unfolded 0 where
  facing := by decide
  back := by decide
  opposite := by decide
  position := by decide

/-- Both letters turn back in their first generation, and go on turning back. -/
theorem Unfolded.direction_succ {count : Nat} (h : Unfolded count) :
    ((quarterWalk (dragonGrowth 'X' (count + 1))).direction : GaussianInt) = -1 ∧
      ((quarterWalk (dragonGrowth 'Y' (count + 1))).direction : GaussianInt) = -1 := by
  rw [quarterWalk_dragonGrowth_X_succ, quarterWalk_dragonGrowth_Y_succ]
  obtain ⟨hfacing, -, -, -⟩ := h
  set x := quarterWalk (dragonGrowth 'X' count)
  set y := quarterWalk (dragonGrowth 'Y' count)
  simp only [Pose.direction_mul, Units.val_mul, Units.val_neg]
  constructor
  · linear_combination (x.direction * y.direction : GaussianInt) * quarterTurn_mul_self - hfacing
  · linear_combination (x.direction * y.direction : GaussianInt) * quarterTurn_mul_self - hfacing

/-- The second half of the first letter's walk is the first half, turned by a right angle. -/
theorem Unfolded.position_succ {count : Nat} (h : Unfolded count) :
    (quarterWalk (dragonGrowth 'X' (count + 1))).position =
        (1 + quarterTurn) * (quarterWalk (dragonGrowth 'X' count)).position + 2 * quarterTurn ∧
      (quarterWalk (dragonGrowth 'Y' (count + 1))).position =
        -((1 + quarterTurn) * (quarterWalk (dragonGrowth 'X' count)).position + 2 * quarterTurn) := by
  rw [quarterWalk_dragonGrowth_X_succ, quarterWalk_dragonGrowth_Y_succ]
  obtain ⟨hfacing, hback, hopposite, -⟩ := h
  set x := quarterWalk (dragonGrowth 'X' count)
  set y := quarterWalk (dragonGrowth 'Y' count)
  have hplaced : x.direction * y.position = x.position := by
    rw [hopposite, mul_neg, hback, neg_neg]
  simp only [Pose.position_mul, Pose.direction_mul, Units.val_mul, Units.val_neg]
  constructor
  · linear_combination (quarterTurn : GaussianInt) * hplaced + 2 * quarterTurn * hfacing
  · linear_combination (x.position : GaussianInt) * quarterTurn_mul_self +
      (quarterTurn * quarterTurn : GaussianInt) * hplaced

theorem Unfolded.succ {count : Nat} (h : Unfolded count) : Unfolded (count + 1) := by
  obtain ⟨hdirectionX, hdirectionY⟩ := h.direction_succ
  obtain ⟨hpositionX, hpositionY⟩ := h.position_succ
  refine ⟨?_, ?_, ?_, ?_⟩
  · rw [hdirectionX, hdirectionY, neg_mul_neg, one_mul]
  · rw [hdirectionX, neg_one_mul]
  · rw [hpositionX, hpositionY]
  · rw [hpositionX, pow_succ, ← mul_assoc, ← h.position]
    ring

theorem unfolded (count : Nat) : Unfolded count := by
  induction count with
  | zero => exact unfolded_zero
  | succ count ih => exact ih.succ

/-- The dragon is the paper-folding curve, in every generation. The derivation returns a word with
as many moves as pieces lie between the creases of a strip that is folded `count` times. Between a
move and the next one the left turns less the right turns are one if the odd part of the number of
the moves so far is 1 modulo 4, and minus one if it is 3. With quarter turns and moves of two, along
the first axis at the start, the walk ends in `2 * (1 + i) ^ count`. The drawing alphabet has the
same moves of two and the turns by half of pi for `+` and `-`, and it ignores the letters. -/
theorem dragonCurve_folds (count : Nat) :
    ∃ word alphabet, (dragonCurve.derive count).result = .ok word ∧
      dragonCurve.alphabet? count = some alphabet ∧
      alphabet.commands.get? 'F' = some (.forward 2) ∧
      alphabet.commands.get? '+' = some (.turn Single.halfPi) ∧
      alphabet.commands.get? '-' = some (.turn (-Single.halfPi)) ∧
      alphabet.commands.get? 'X' = some .ignore ∧ alphabet.commands.get? 'Y' = some .ignore ∧
      word.count 'F' = 2 ^ count ∧
      (∀ moves, 1 ≤ moves → moves < 2 ^ count → ∃ between,
        (word.splitOn 'F')[moves]? = some between ∧
          (ordCompl[2] moves % 4 = 1 → (between.count '+' - between.count '-' : Int) = 1) ∧
          (ordCompl[2] moves % 4 = 3 → (between.count '+' - between.count '-' : Int) = -1)) ∧
      (Pose.ofWord quarterTurn 2 word).position = 2 * (1 + ⟨0, 1⟩) ^ count := by
  have hword : dragonCurve.generation count = 'F' :: dragonGrowth 'X' count :=
    generation_dragonCurve count
  have hmoves := (count_move_dragonGrowth count).1
  refine ⟨dragonCurve.generation count, _, dragonCurve.result_derive count, rfl, rfl, rfl, rfl, rfl,
    rfl, ?_, fun moves hpos hlt ↦ ?_, ?_⟩
  · rw [hword, List.count_cons_self, hmoves]
  · have hlength : moves < ((dragonCurve.generation count).splitOn 'F').length := by
      rw [length_splitOn_move, hword, List.count_cons_self, hmoves]
      exact Nat.lt_succ_of_lt hlt
    obtain ⟨earlier, rfl⟩ : ∃ earlier, moves = earlier + 1 := ⟨moves - 1, by omega⟩
    have hturn : turnAfter (dragonCurve.generation count) (earlier + 1) = crease (earlier + 1) := by
      rw [hword, turnAfter_move_succ, (folded count).turns_X earlier hlt]
    rw [turnAfter, List.getD_eq_getElem?_getD, List.getElem?_eq_getElem hlength,
      Option.getD_some] at hturn
    refine ⟨_, List.getElem?_eq_getElem hlength, fun hone ↦ ?_, fun hthree ↦ ?_⟩
    · rw [← netTurn, hturn, crease, if_pos hone]
    · rw [← netTurn, hturn, crease, if_neg (by omega)]
  · have hmove : quarterWalk ['F'] = ⟨2, 1⟩ := Pose.ext (by decide) (by decide)
    rw [← quarterWalk, hword, ← List.singleton_append, quarterWalk_append, hmove,
      Pose.position_mul, Units.val_one, one_mul, (unfolded count).position]
    rfl

end Classic

end Lindenmayer
