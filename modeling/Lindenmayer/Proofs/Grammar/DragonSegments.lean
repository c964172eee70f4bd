import Lindenmayer.Proofs.Grammar.PaperFolding
import Mathlib.Algebra.Field.ZMod
import Mathlib.Data.Sym.Sym2

/-!
# The dragon never retraces a segment

With quarter turns and moves of one, a dragon is walked on the points of the Gaussian integers, and
no segment of the walk is passed twice, in whichever direction. That is
`Classic.dragonCurve_never_retraces`.

The walk follows a strip of paper with all its creases opened to right angles (`strip`), which goes
on without an end. Its shape repeats itself: every second point is a point of the same strip, larger
by the square root of two and turned by half a right angle (`strip_two_mul`). And the points are
coloured like the squares of a chess board, in turn (`colour_position_strip`).

Two numbers of moves behind which the strip is at the same point are therefore both even or both
odd. If its direction is the same as well, the segments that follow are found in the strip again, at
half their numbers (`strip_injective`). In opposite directions no segment is traversed twice: the
colours of its ends say that one of the numbers is even and the other odd, and then the directions
are not even parallel.
-/

set_option autoImplicit false

namespace Lindenmayer

/-! ### Creases of half a strip -/

/-- Every second crease is a crease of the strip that is folded once less. -/
theorem crease_two_mul {number : Nat} (h : number ≠ 0) : crease (2 * number) = crease number := by
  obtain ⟨twos, odd, hodd, rfl⟩ := Nat.exists_eq_two_pow_mul_odd h
  have hdvd : ¬ 2 ∣ odd := hodd.not_two_dvd_nat
  rw [← mul_assoc, ← pow_succ', crease_two_pow_mul (twos + 1) hdvd, crease_two_pow_mul twos hdvd]

/-- The creases in between, which the last folding makes, turn left and right by turns. -/
theorem crease_two_mul_add_one (number : Nat) :
    crease (2 * number + 1) = if number % 2 = 0 then 1 else -1 := by
  have hcrease := crease_two_pow_mul 0 (show ¬ 2 ∣ 2 * number + 1 by omega)
  rw [pow_zero, one_mul] at hcrease
  rw [hcrease]
  split <;> split <;> omega

/-! ### Points of a walk from the turns between its moves -/

namespace Pose

variable {R : Type} [CommRing R] (unit : Rˣ) (step : R)

/-- The pose behind a number of moves and the turn that follows them, when the turns are given. -/
def along (pose : Pose R) (turns : Nat → Int) : Nat → Pose R
  | 0 => pose * ⟨0, unit ^ turns 0⟩
  | moves + 1 => along pose turns moves * ⟨step, unit ^ turns (moves + 1)⟩

/-- A move at the front goes first. -/
theorem along_move (pose : Pose R) (word : Word) (moves : Nat) :
    along unit step pose (turnAfter ('F' :: word)) (moves + 1) =
      along unit step (read unit step pose 'F') (turnAfter word) moves := by
  induction moves with
  | zero =>
    have hread : read unit step pose 'F' = pose * ⟨step, 1⟩ := by ext <;> simp [read]
    rw [along, along, along, turnAfter_move_zero, turnAfter_move_succ, zpow_zero, hread]
    ext
    · simp
    · simp
  | succ moves ih => rw [along, ih, along, turnAfter_move_succ]

/-- Any other symbol at the front has turned the pose before the first move. -/
theorem along_cons_of_ne (pose : Pose R) {symbol : Char} (h : symbol ≠ 'F') (word : Word)
    (moves : Nat) :
    along unit step pose (turnAfter (symbol :: word)) moves =
      along unit step (read unit step pose symbol) (turnAfter word) moves := by
  induction moves with
  | zero =>
    rw [along, along, turnAfter_cons h, if_pos rfl]
    ext
    · simp [position_read_of_ne unit step pose h]
    · rw [direction_mul, direction_mul, direction_read, zpow_add, mul_assoc]
  | succ moves ih =>
    rw [along, ih, along, turnAfter_cons h, if_neg (Nat.succ_ne_zero moves), zero_add]

/-- The points of a walk are found from the turns between its moves. -/
theorem getElem?_trail (pose : Pose R) (word : Word) {moves : Nat} (hle : moves ≤ word.count 'F') :
    (trail unit step pose word)[moves]? =
      some (along unit step pose (turnAfter word) moves).position := by
  induction word generalizing pose moves with
  | nil =>
    obtain rfl : moves = 0 := by simpa using hle
    simp [trail, along]
  | cons symbol word ih =>
    by_cases hmove : symbol = 'F'
    · subst hmove
      rw [trail_move]
      cases moves with
      | zero => simp [along]
      | succ moves =>
        rw [List.count_cons_self] at hle
        rw [List.getElem?_cons_succ, along_move, ih _ (by omega)]
    · rw [List.count_cons_of_ne hmove] at hle
      rw [trail_cons_of_ne unit step pose hmove, along_cons_of_ne unit step pose hmove, ih _ hle]

end Pose

/-- The segments between the points of a trail, which have no direction. -/
def segments {R : Type} (points : List R) : List (Sym2 R) :=
  List.zipWith (fun start stop ↦ s(start, stop)) points points.tail

namespace Classic

/-! ### The strip -/

/-- The strip of paper with right angles in its creases: the pose behind a number of moves of one
and the crease that follows them. -/
def strip : Nat → Pose GaussianInt
  | 0 => 1
  | moves + 1 => strip moves * ⟨1, quarterTurn ^ crease (moves + 1)⟩

theorem position_strip_succ (moves : Nat) :
    (strip (moves + 1)).position = (strip moves).position + (strip moves).direction := by
  rw [strip, Pose.position_mul, mul_one]

/-- The moves of a generation follow the strip, as far as they go. -/
theorem along_generation {count moves : Nat} (hlt : moves < 2 ^ count) :
    Pose.along quarterTurn 1 1 (turnAfter (dragonCurve.generation count)) moves = strip moves := by
  rw [generation_dragonCurve, List.singleton_append]
  induction moves with
  | zero => rw [Pose.along, strip, turnAfter_move_zero, zpow_zero]; rfl
  | succ moves ih =>
    rw [Pose.along, ih (by omega), strip, turnAfter_move_succ, (folded count).turns_X moves hlt]

theorem count_move_generation (count : Nat) :
    (dragonCurve.generation count).count 'F' = 2 ^ count := by
  rw [generation_dragonCurve, List.singleton_append, List.count_cons_self,
    (count_move_dragonGrowth count).1]

/-- The points of a generation are the first points of the strip. -/
theorem trail_generation (count : Nat) :
    Pose.trail quarterTurn 1 1 (dragonCurve.generation count) =
      (List.range (2 ^ count + 1)).map fun moves ↦ (strip moves).position := by
  have hlength := Pose.length_trail quarterTurn 1 1 (dragonCurve.generation count)
  have hcount := count_move_generation count
  refine List.ext_getElem? fun moves ↦ ?_
  rcases Nat.lt_or_ge (2 ^ count) moves with hbehind | hle
  · rw [List.getElem?_eq_none (by omega), List.getElem?_eq_none (by simpa using hbehind)]
  · rw [Pose.getElem?_trail quarterTurn 1 1 _ (by omega), List.getElem?_map,
      List.getElem?_range (by omega), Option.map_some]
    cases moves with
    | zero => simp [Pose.along, strip]
    | succ moves =>
      rw [Pose.along, Pose.position_mul, mul_one, along_generation hle, position_strip_succ]

/-! ### The strip in itself -/

/-- Every second point of the strip is a point of the strip, larger by the square root of two and
turned by half a right angle. The two moves between such points are the legs of a right angle, on
the one side of the larger move and on the other by turns, so that the direction behind every other
point is a quarter turn further to the left. -/
theorem strip_two_mul (moves : Nat) :
    strip (2 * moves) =
      ⟨(1 + quarterTurn) * (strip moves).position,
        (strip moves).direction * quarterTurn ^ (moves % 2)⟩ := by
  have hinverse : (quarterTurn : GaussianInt) * (quarterTurn⁻¹ : GaussianIntˣ) = 1 :=
    quarterTurn.mul_inv
  induction moves with
  | zero => ext <;> simp [strip]
  | succ moves ih =>
    have hdouble : 2 * (moves + 1) = 2 * moves + 1 + 1 := by ring
    have hcrease : crease (2 * moves + 1 + 1) = crease (moves + 1) := by
      rw [← hdouble, crease_two_mul (Nat.succ_ne_zero moves)]
    rw [hdouble, strip, strip, hcrease, crease_two_mul_add_one, ih, strip]
    rcases Nat.mod_two_eq_zero_or_one moves with heven | hodd
    · have hnext : (moves + 1) % 2 = 1 := by omega
      rw [heven, hnext, if_pos rfl, pow_zero, pow_one, zpow_one]
      ext1
      · simp only [Pose.position_mul, Pose.direction_mul, mul_one, Units.val_mul]
        ring
      · simp only [Pose.direction_mul, mul_one]
        exact mul_right_comm _ _ _
    · have hnext : (moves + 1) % 2 = 0 := by omega
      rw [hodd, hnext, if_neg (by decide), pow_zero, pow_one, zpow_neg_one]
      ext1
      · simp only [Pose.position_mul, Pose.direction_mul, mul_one, Units.val_mul]
        linear_combination ((strip moves).direction : GaussianInt) * hinverse
      · simp only [Pose.direction_mul, mul_one]
        rw [mul_inv_cancel_right]

/-! ### Colours -/

/-- The colour of a point when the points of the grid are coloured like a chess board. -/
def colour : GaussianInt →+* ZMod 2 := Zsqrtd.lift ⟨1, by decide⟩

/-- A move leads to the other colour. -/
theorem colour_unit (direction : GaussianIntˣ) : colour direction = 1 := by
  have hone : Units.map (colour : GaussianInt →* ZMod 2) direction = 1 := Subsingleton.elim _ _
  exact congrArg Units.val hone

theorem colour_position_strip (moves : Nat) : colour (strip moves).position = moves := by
  induction moves with
  | zero => exact map_zero colour
  | succ moves ih => rw [position_strip_succ, map_add, ih, colour_unit, Nat.cast_succ]

/-- Where the strip comes to the same point again, the numbers of moves are both even or both
odd. -/
theorem mod_two_eq_of_position_eq {first second : Nat}
    (h : (strip first).position = (strip second).position) : first % 2 = second % 2 := by
  have hcolour := congrArg colour h
  rwa [colour_position_strip, colour_position_strip, ZMod.natCast_eq_natCast_iff'] at hcolour

/-- The strip turns by a right angle in each crease, so its direction is that of the first axis or
of its opposite behind an even number of moves only. -/
theorem direction_strip_mul_self (moves : Nat) :
    (strip moves).direction * (strip moves).direction = (-1) ^ moves := by
  have hleft : quarterTurn * quarterTurn = -1 := by decide
  have hright : quarterTurn⁻¹ * quarterTurn⁻¹ = -1 := by decide
  induction moves with
  | zero => rfl
  | succ moves ih =>
    rw [strip, Pose.direction_mul, mul_mul_mul_comm, ih, pow_succ, crease]
    split
    · rw [zpow_one, hleft]
    · rw [zpow_neg_one, hright]

/-! ### No segment twice -/

/-- A pose at an even number is found at half the number again. -/
theorem strip_eq_of_two_mul {first second : Nat} (h : strip (2 * first) = strip (2 * second)) :
    strip first = strip second := by
  have hne : (1 + quarterTurn : GaussianInt) ≠ 0 := by decide
  rw [strip_two_mul, strip_two_mul, Pose.mk.injEq] at h
  obtain ⟨hposition, hdirection⟩ := h
  have hposition := mul_left_cancel₀ hne hposition
  rw [mod_two_eq_of_position_eq hposition] at hdirection
  exact Pose.ext hposition (mul_right_cancel hdirection)

/-- A pose at an odd number is found one move before. The crease on the way is told by the end of
the next move, which is a point of half the strip. -/
theorem strip_two_mul_eq {first second : Nat} (h : strip (2 * first + 1) = strip (2 * second + 1)) :
    strip (2 * first) = strip (2 * second) := by
  have hne : (1 + quarterTurn : GaussianInt) ≠ 0 := by decide
  have hstop : (strip (2 * (first + 1))).position = (strip (2 * (second + 1))).position := by
    rw [Nat.mul_succ, Nat.mul_succ, position_strip_succ (2 * first + 1), h, ← position_strip_succ]
  rw [strip_two_mul, strip_two_mul] at hstop
  have hnext := mod_two_eq_of_position_eq (mul_left_cancel₀ hne hstop)
  have hmod : first % 2 = second % 2 := by omega
  rw [strip, strip, crease_two_mul_add_one, crease_two_mul_add_one, hmod, Pose.ext_iff] at h
  obtain ⟨hposition, hdirection⟩ := h
  have hdirection : (strip (2 * first)).direction = (strip (2 * second)).direction :=
    mul_right_cancel hdirection
  rw [Pose.position_mul, Pose.position_mul, hdirection] at hposition
  exact Pose.ext (add_right_cancel hposition) hdirection

/-- The strip never comes to the same point in the same direction again. -/
theorem strip_injective : Function.Injective strip := by
  suffices hbounded : ∀ bound first second, first + second ≤ bound →
      strip first = strip second → first = second from
    fun first second h ↦ hbounded _ first second le_rfl h
  intro bound
  induction bound with
  | zero => intro first second hle _; omega
  | succ bound ih =>
    intro first second hle h
    have hmod := mod_two_eq_of_position_eq (congrArg Pose.position h)
    rcases Nat.even_or_odd' first with ⟨half, rfl | rfl⟩
    · obtain ⟨other, rfl⟩ : ∃ other, second = 2 * other := ⟨second / 2, by omega⟩
      by_cases hzero : half + other = 0
      · omega
      · rw [ih half other (by omega) (strip_eq_of_two_mul h)]
    · obtain ⟨other, rfl⟩ : ∃ other, second = 2 * other + 1 := ⟨second / 2, by omega⟩
      rw [ih (2 * half) (2 * other) (by omega) (strip_two_mul_eq h)]

/-- The segment that is traversed after a number of moves. -/
def stripSegment (moves : Nat) : Sym2 GaussianInt :=
  s((strip moves).position, (strip (moves + 1)).position)

/-- Two segments in opposite directions would be parallel, but one of their numbers is even and the
other odd. -/
theorem not_opposite {first second : Nat}
    (hstart : (strip first).position = (strip (second + 1)).position) :
    (strip (first + 1)).position ≠ (strip second).position := by
  intro hstop
  have hmod := mod_two_eq_of_position_eq hstart
  have hdirection : (strip first).direction = -(strip second).direction := by
    rw [position_strip_succ] at hstart hstop
    apply Units.ext
    rw [Units.val_neg]
    linear_combination hstop - hstart
  have hsquare := direction_strip_mul_self first
  rw [hdirection, neg_mul_neg, direction_strip_mul_self] at hsquare
  have hunits : (1 : GaussianIntˣ) ≠ -1 := by decide
  rcases Nat.even_or_odd second with heven | hodd
  · have hodd : Odd first := Nat.odd_iff.mpr (by rw [Nat.even_iff] at heven; omega)
    rw [heven.neg_one_pow, hodd.neg_one_pow] at hsquare
    exact hunits hsquare
  · have heven : Even first := Nat.even_iff.mpr (by rw [Nat.odd_iff] at hodd; omega)
    rw [heven.neg_one_pow, hodd.neg_one_pow] at hsquare
    exact hunits hsquare.symm

theorem stripSegment_injective : Function.Injective stripSegment := by
  intro first second h
  rcases Sym2.eq_iff.mp h with ⟨hstart, hstop⟩ | ⟨hstart, hstop⟩
  · rw [position_strip_succ, position_strip_succ, hstart] at hstop
    exact strip_injective (Pose.ext hstart (Units.ext (add_left_cancel hstop)))
  · exact absurd hstop (not_opposite hstart)

/-- The segments of a generation are the first segments of the strip. -/
theorem segments_trail_generation (count : Nat) :
    segments (Pose.trail quarterTurn 1 1 (dragonCurve.generation count)) =
      (List.range (2 ^ count)).map stripSegment := by
  rw [trail_generation, segments, ← List.map_tail, List.zipWith_map]
  refine List.ext_getElem (by simp) fun moves _ _ ↦ ?_
  simp [stripSegment, Nat.add_comm]

/-- The dragon never retraces a segment, in any generation. With quarter turns and moves of one from
the origin, along the first axis at the start, the trail of its word has a segment for each of its
`2 ^ count` moves. Every segment joins neighbours on the grid of the Gaussian integers, whichever of
its ends it begins with, and no segment is traversed twice. The drawing alphabet has the turns by
half of pi for `+` and `-` and one length for all moves, and it ignores the letters. -/
theorem dragonCurve_never_retraces (count : Nat) :
    ∃ word alphabet, (dragonCurve.derive count).result = .ok word ∧
      dragonCurve.alphabet? count = some alphabet ∧
      alphabet.commands.get? 'F' = some (.forward 2) ∧
      alphabet.commands.get? '+' = some (.turn Single.halfPi) ∧
      alphabet.commands.get? '-' = some (.turn (-Single.halfPi)) ∧
      alphabet.commands.get? 'X' = some .ignore ∧ alphabet.commands.get? 'Y' = some .ignore ∧
      let points := Pose.trail quarterTurn 1 1 word
      points.head? = some 0 ∧ points[1]? = some 1 ∧
      (segments points).length = 2 ^ count ∧
      (∀ segment ∈ segments points, ∃ start : GaussianInt, ∃ direction : GaussianIntˣ,
        segment = s(start, start + direction)) ∧
      (segments points).Nodup := by
  refine ⟨dragonCurve.generation count, _, dragonCurve.result_derive count, rfl, rfl, rfl, rfl, rfl,
    rfl, ?_⟩
  intro points
  have hpoints : points = (List.range (2 ^ count + 1)).map fun moves ↦ (strip moves).position :=
    trail_generation count
  have hsegments : segments points = (List.range (2 ^ count)).map stripSegment :=
    segments_trail_generation count
  refine ⟨?_, ?_, ?_, ?_, ?_⟩
  · rw [List.head?_eq_getElem?]
    exact Pose.getElem?_trail_zero quarterTurn 1 1 _
  · rw [hpoints, List.getElem?_map, List.getElem?_range (Nat.succ_lt_succ (Nat.two_pow_pos count)),
      Option.map_some, position_strip_succ]
    rfl
  · rw [hsegments, List.length_map, List.length_range]
  · intro segment hsegment
    rw [hsegments] at hsegment
    obtain ⟨moves, -, rfl⟩ := List.mem_map.mp hsegment
    exact ⟨(strip moves).position, (strip moves).direction, by
      rw [stripSegment, position_strip_succ]⟩
  · rw [hsegments]
    exact List.nodup_range.map stripSegment_injective

end Classic

end Lindenmayer
