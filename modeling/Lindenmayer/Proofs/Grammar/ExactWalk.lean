import Lindenmayer.Grammar.Rewriting
import Mathlib.Algebra.Group.Units.Basic
import Mathlib.Algebra.Ring.Defs
import Mathlib.Tactic.Ring

/-!
# Exact walks

A word that is drawn with equal moves and equal turns can be walked without rounding, in any
commutative ring that has a unit for the turn: a position is an element of the ring, a direction is
a unit, a move adds the direction times the length of a step, and a turn multiplies the direction.
Quarter turns are walked in the Gaussian integers, with the imaginary unit.

A `Pose` is a position with a direction. Poses are composed as placements: walking a word from a
pose is the walk from the origin, placed there (`Pose.walk_eq_mul`). So the walks of two words put
together are composed (`Pose.walk_append`, `Pose.ofWord_append`).
-/

set_option autoImplicit false

namespace Lindenmayer

/-- The left turns of a word less its right turns. -/
def netTurn (word : Word) : Int := word.count '+' - word.count '-'

@[simp] theorem netTurn_nil : netTurn [] = 0 := rfl

theorem netTurn_append (first second : Word) :
    netTurn (first ++ second) = netTurn first + netTurn second := by
  simp only [netTurn, List.count_append]
  push_cast
  ring

theorem netTurn_cons (symbol : Char) (word : Word) :
    netTurn (symbol :: word) = netTurn [symbol] + netTurn word :=
  netTurn_append [symbol] word

/-- Where a walk has come to, and which way it goes on. -/
@[ext] structure Pose (R : Type) [CommRing R] where
  position : R
  direction : Rˣ

namespace Pose

variable {R : Type} [CommRing R]

/-- The origin, with the direction of the first axis. -/
instance : One (Pose R) := ⟨⟨0, 1⟩⟩

/-- A second pose, placed at the first one. -/
instance : Mul (Pose R) where
  mul first second :=
    ⟨first.position + first.direction * second.position, first.direction * second.direction⟩

@[simp] theorem position_one : (1 : Pose R).position = 0 := rfl

@[simp] theorem direction_one : (1 : Pose R).direction = 1 := rfl

@[simp] theorem position_mul (first second : Pose R) :
    (first * second).position = first.position + first.direction * second.position := rfl

@[simp] theorem direction_mul (first second : Pose R) :
    (first * second).direction = first.direction * second.direction := rfl

instance : Monoid (Pose R) where
  mul_assoc first second third := by
    ext
    · simp only [position_mul, direction_mul, Units.val_mul]
      ring
    · simp only [direction_mul, mul_assoc]
  one_mul pose := by ext <;> simp
  mul_one pose := by ext <;> simp

variable (unit : Rˣ) (step : R)

/-- Reads a symbol: `F` moves by a step, `+` turns by the unit and `-` turns back. -/
def read (pose : Pose R) (symbol : Char) : Pose R :=
  if symbol = 'F' then { pose with position := pose.position + pose.direction * step }
  else if symbol = '+' then { pose with direction := pose.direction * unit }
  else if symbol = '-' then { pose with direction := pose.direction * unit⁻¹ }
  else pose

/-- Reads a word from its first symbol to its last. -/
def walk (pose : Pose R) (word : Word) : Pose R := word.foldl (read unit step) pose

/-- The end of the walk of a word from the origin. -/
def ofWord (word : Word) : Pose R := walk unit step 1 word

theorem walk_cons (pose : Pose R) (symbol : Char) (word : Word) :
    walk unit step pose (symbol :: word) = walk unit step (read unit step pose symbol) word := rfl

theorem walk_append (pose : Pose R) (first second : Word) :
    walk unit step pose (first ++ second) = walk unit step (walk unit step pose first) second :=
  List.foldl_append

/-- Reading a symbol does the same at every pose. -/
theorem read_eq_mul (pose : Pose R) (symbol : Char) :
    read unit step pose symbol = pose * read unit step 1 symbol := by
  rw [read, read]
  split
  · ext <;> simp
  · split
    · ext <;> simp
    · split
      · ext <;> simp
      · rw [mul_one]

/-- Walking a word does the same at every pose. -/
theorem walk_eq_mul (pose : Pose R) (word : Word) :
    walk unit step pose word = pose * ofWord unit step word := by
  induction word generalizing pose with
  | nil => exact (mul_one pose).symm
  | cons symbol word ih =>
    rw [ofWord, walk_cons, walk_cons, ih, ih (read unit step 1 symbol), ← mul_assoc, ← read_eq_mul]

/-- The walk of a word in two pieces: the second piece goes on where the first one ends. -/
theorem ofWord_append (first second : Word) :
    ofWord unit step (first ++ second) = ofWord unit step first * ofWord unit step second := by
  rw [ofWord, walk_append, walk_eq_mul, ← ofWord]

/-- A turn is read as a power of the unit. -/
theorem direction_read (pose : Pose R) (symbol : Char) :
    (read unit step pose symbol).direction = pose.direction * unit ^ netTurn [symbol] := by
  rw [read]
  split
  · next h => rw [h, show netTurn ['F'] = 0 from rfl, zpow_zero, mul_one]
  · split
    · next h => rw [h, show netTurn ['+'] = 1 from rfl, zpow_one]
    · split
      · next h => rw [h, show netTurn ['-'] = -1 from rfl, zpow_neg_one]
      · next hleft hright =>
        have hnet : netTurn [symbol] = 0 := by
          rw [netTurn, List.count_singleton, List.count_singleton, if_neg (by simpa using hleft),
            if_neg (by simpa using hright)]
          rfl
        rw [hnet, zpow_zero, mul_one]

/-- The direction at the end of a walk depends on the net turn only. -/
theorem direction_ofWord (word : Word) :
    (ofWord unit step word).direction = unit ^ netTurn word := by
  induction word with
  | nil => exact (zpow_zero unit).symm
  | cons symbol word ih =>
    rw [← List.singleton_append, ofWord_append, direction_mul, ih, netTurn_append, zpow_add]
    congr 1
    exact (direction_read unit step 1 symbol).trans (one_mul _)

/-! ### Points on the way -/

/-- The points of a walk: the one where it begins, and the end of every move. -/
def trail (pose : Pose R) : Word → List R
  | [] => [pose.position]
  | symbol :: word =>
    let rest := trail (read unit step pose symbol) word
    if symbol = 'F' then pose.position :: rest else rest

theorem trail_move (pose : Pose R) (word : Word) :
    trail unit step pose ('F' :: word) =
      pose.position :: trail unit step (read unit step pose 'F') word := by
  rw [trail, if_pos rfl]

theorem trail_cons_of_ne (pose : Pose R) {symbol : Char} (h : symbol ≠ 'F') (word : Word) :
    trail unit step pose (symbol :: word) = trail unit step (read unit step pose symbol) word := by
  rw [trail, if_neg h]

/-- The length of a step shows in moves only. -/
theorem read_of_ne (other : R) (pose : Pose R) {symbol : Char} (h : symbol ≠ 'F') :
    read unit step pose symbol = read unit other pose symbol := by
  rw [read, read, if_neg h, if_neg h]

/-- Only moves change the position. -/
theorem position_read_of_ne (pose : Pose R) {symbol : Char} (h : symbol ≠ 'F') :
    (read unit step pose symbol).position = pose.position := by
  rw [read, if_neg h]
  split
  · rfl
  · split <;> rfl

theorem length_trail (pose : Pose R) (word : Word) :
    (trail unit step pose word).length = word.count 'F' + 1 := by
  induction word generalizing pose with
  | nil => rfl
  | cons symbol word ih =>
    by_cases hmove : symbol = 'F'
    · rw [hmove, trail_move, List.length_cons, ih, List.count_cons_self]
    · rw [trail_cons_of_ne unit step pose hmove, ih, List.count_cons_of_ne hmove]

/-- A trail begins where the walk begins. -/
theorem getElem?_trail_zero (pose : Pose R) (word : Word) :
    (trail unit step pose word)[0]? = some pose.position := by
  induction word generalizing pose with
  | nil => rfl
  | cons symbol word ih =>
    by_cases hmove : symbol = 'F'
    · rw [hmove, trail_move, List.getElem?_cons_zero]
    · rw [trail_cons_of_ne unit step pose hmove, ih, position_read_of_ne unit step pose hmove]

/-- A trail ends where the walk ends. -/
theorem getLast?_trail (pose : Pose R) (word : Word) :
    (trail unit step pose word).getLast? = some (walk unit step pose word).position := by
  induction word generalizing pose with
  | nil => rfl
  | cons symbol word ih =>
    have hrest := ih (read unit step pose symbol)
    by_cases hmove : symbol = 'F'
    · subst hmove
      rw [trail_move, List.getLast?_cons, hrest]
      rfl
    · rw [trail_cons_of_ne unit step pose hmove, hrest]
      rfl

/-- The trails of two words put together share the point where the second walk begins. -/
theorem trail_append (pose : Pose R) (first second : Word) :
    trail unit step pose (first ++ second) =
      (trail unit step pose first).dropLast ++
        trail unit step (walk unit step pose first) second := by
  induction first generalizing pose with
  | nil => rfl
  | cons symbol first ih =>
    have hrest := ih (read unit step pose symbol)
    rw [List.cons_append]
    by_cases hmove : symbol = 'F'
    · subst hmove
      have hne : trail unit step (read unit step pose 'F') first ≠ [] :=
        List.ne_nil_of_length_eq_add_one (length_trail unit step _ first)
      rw [trail_move, trail_move, hrest, List.dropLast_cons_of_ne_nil hne, List.cons_append]
      rfl
    · rw [trail_cons_of_ne unit step pose hmove, trail_cons_of_ne unit step pose hmove, hrest]
      rfl

/-- Steps that are a number of times as long lead to points that are as many times as far. -/
theorem trail_mul (factor : R) (pose : Pose R) (word : Word) :
    trail unit (factor * step) ⟨factor * pose.position, pose.direction⟩ word =
      (trail unit step pose word).map (factor * ·) := by
  induction word generalizing pose with
  | nil => rfl
  | cons symbol word ih =>
    have hread : read unit (factor * step) ⟨factor * pose.position, pose.direction⟩ symbol =
        ⟨factor * (read unit step pose symbol).position,
          (read unit step pose symbol).direction⟩ := by
      rw [read, read]
      split
      · ext
        · simp only
          ring
        · rfl
      · split
        · rfl
        · split <;> rfl
    by_cases hmove : symbol = 'F'
    · subst hmove
      rw [trail_move, trail_move, hread, ih, List.map_cons]
    · rw [trail_cons_of_ne unit _ _ hmove, trail_cons_of_ne unit step pose hmove, hread, ih]

end Pose

end Lindenmayer
