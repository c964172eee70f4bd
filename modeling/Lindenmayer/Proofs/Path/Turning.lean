import Lindenmayer.Proofs.Path.Stops
import Lindenmayer.Proofs.Space.Normalizing

/-!
# Steps that turn the traveller

A traveller turns towards where his last step went, unless it went nowhere. Whether it went anywhere
is seen from the sum of the squares of the move, and in single precision that sum is lost at both
ends: the squares of short moves are rounded to zero, and those of far moves are infinite. In both
cases the traveller moves and keeps the rotation he had, as if he had not
(`Rotor.facing?_eq_none_iff`).

In between, a step turns the traveller if and only if it moves him. The bounds are in
`turns_unless_squares_are_lost`: what counts is that no coordinate of the move is beyond `2 ^ 63`,
and that one of them is beyond `2 ^ (-75)` unless all are zero.
-/

set_option autoImplicit false

namespace Lindenmayer

open Single

/-! ### Directions -/

/-- There is no rotation that faces a finite direction exactly if its squares are lost, in a sum
that is zero or infinite. -/
theorem Rotor.facing?_eq_none_iff {direction : Point} (hfinite : direction.IsFinite) :
    Rotor.facing? direction = none ↔
      direction.Within (2 ^ (-75 : ℤ)) ∨ (direction.dot direction).isFinite = false := by
  rw [Rotor.facing?, Option.map_eq_none_iff, Vector3.normalize?_eq_none_iff]
  cases hdot : (direction.dot direction).isFinite with
  | false => simp
  | true => simp [Vector3.dot_self_pos_iff hfinite hdot]

/-! ### Moves -/

/-- A rounded difference is zero only between equal numbers. -/
theorem value_sub_eq_zero_iff {first second : Float32} (h : (first - second).isFinite = true) :
    value (first - second) = 0 ↔ value first = value second := by
  obtain ⟨hfirst, hsecond⟩ := isFinite_of_sub h
  rw [(isRounded_sub hfirst hsecond).value_eq h]
  constructor
  · intro hzero
    rcases lt_trichotomy (value first) (value second) with hlt | heq | hgt
    · have hpos := (grid_value second).nearest_sub_pos (grid_value first) hlt
      rw [← neg_sub, nearest_neg, hzero, neg_zero] at hpos
      exact absurd hpos (lt_irrefl 0)
    · exact heq
    · exact absurd hzero ((grid_value first).nearest_sub_pos (grid_value second) hgt).ne'
  · intro heq
    rw [heq, sub_self, nearest_zero]

namespace Vector3

theorem isFinite_of_sub {first second : Point} (h : (first - second).IsFinite) :
    first.IsFinite ∧ second.IsFinite := by
  obtain ⟨hx, hy, hz⟩ := forall_mem_coordinates.mp h
  obtain ⟨hx, hx'⟩ := Single.isFinite_of_sub hx
  obtain ⟨hy, hy'⟩ := Single.isFinite_of_sub hy
  obtain ⟨hz, hz'⟩ := Single.isFinite_of_sub hz
  exact ⟨forall_mem_coordinates.mpr ⟨hx, hy, hz⟩, forall_mem_coordinates.mpr ⟨hx', hy', hz'⟩⟩

/-- A finite move goes nowhere exactly between equal places. -/
theorem within_zero_sub_iff {first second : Point} (h : (first - second).IsFinite) :
    (first - second).Within 0 ↔ (first == second) = true := by
  obtain ⟨hfirst, hsecond⟩ := isFinite_of_sub h
  obtain ⟨hx, hy, hz⟩ := forall_mem_coordinates.mp h
  rw [Vector3.beq_iff hfirst hsecond, ← value_sub_eq_zero_iff hx, ← value_sub_eq_zero_iff hy,
    ← value_sub_eq_zero_iff hz]
  simp only [Within, forall_mem_coordinates, abs_nonpos_iff]
  rfl

theorem Within.mono {vector : Point} {bound bound' : ℚ} (h : vector.Within bound)
    (hle : bound ≤ bound') : vector.Within bound' :=
  fun coordinate hmem ↦ (h coordinate hmem).trans hle

end Vector3

/-- The bounds between which every move of a walk turns the traveller.

A finite direction is faced unless its coordinates are all up to `2 ^ (-75)`, or the sum of their
squares, computed in single precision, is infinite. The sum is finite if no coordinate is beyond
`2 ^ 63`, and infinite if one reaches `2 ^ 64`.

A step of a walk whose move cannot be faced leaves the traveller as he was turned before, and any
other step turns him to face its move. A step that does not move him is of the first kind. If the
coordinates of the move are at most `2 ^ 63`, and one of them is beyond `2 ^ (-75)` unless all are
zero, a step is of the first kind only if it does not move him. -/
theorem turns_unless_squares_are_lost (curve : Curve) (steps : Nat) (hsteps : steps ≠ 0)
    (hbounded : curve.domain.isBounded = true) :
    (∀ direction : Point, direction.IsFinite →
      (Rotor.facing? direction = none ↔
        direction.Within (2 ^ (-75 : ℤ)) ∨ (direction.dot direction).isFinite = false) ∧
      (direction.Within (2 ^ (63 : ℤ)) → (direction.dot direction).isFinite = true) ∧
      ((∃ coordinate ∈ direction.coordinates, 2 ^ (64 : ℤ) ≤ |value coordinate|) →
        (direction.dot direction).isFinite = false)) ∧
    ∃ stops, (curve.walk steps).result = .ok stops ∧ stops.length = steps ∧
      ∀ index stop, stops[index]? = some stop → ∃ previous rotation,
        (index = 0 →
          previous = curve.sampleClamped curve.domain.first ∧ rotation = .identity) ∧
        (∀ before earlier, index = before + 1 → stops[before]? = some earlier →
          previous = earlier.location ∧ rotation = earlier.rotation) ∧
        let move := stop.location - previous
        (Rotor.facing? move = none → stop.rotation = rotation) ∧
        (∀ turned, Rotor.facing? move = some turned → stop.rotation = turned) ∧
        (move.IsFinite →
          ((stop.location == previous) = true → Rotor.facing? move = none) ∧
          (move.Within (2 ^ (63 : ℤ)) → (move.Within (2 ^ (-75 : ℤ)) → move.Within 0) →
            Rotor.facing? move = none → (stop.location == previous) = true)) := by
  refine ⟨fun direction hfinite ↦ ⟨Rotor.facing?_eq_none_iff hfinite,
    Vector3.isFinite_dot_self hfinite, ?_⟩, ?_⟩
  · rintro ⟨coordinate, hmem, hle⟩
    refine Bool.eq_false_iff.mpr fun hdot ↦ hle.not_gt ?_
    exact Vector3.abs_lt_of_isFinite_dot_self hfinite hdot coordinate hmem
  refine ⟨curve.stops steps, ?_, curve.length_stops steps, fun index stop hstop ↦ ?_⟩
  · rw [curve.walk_of_bounded steps hsteps hbounded]
  have hindex : index < steps := by
    rw [← curve.length_stops steps]
    exact (List.getElem?_eq_some_iff.mp hstop).1
  rw [curve.getElem?_stops steps hindex, Option.some_inj] at hstop
  subst hstop
  refine ⟨curve.site steps index, curve.rotationAt steps index, ?_, ?_, fun hstill ↦ ?_,
    fun turned hturned ↦ ?_, fun hfinite ↦ ⟨fun hequal ↦ ?_, fun hnear hseen hstill ↦ ?_⟩⟩
  · rintro rfl
    exact ⟨rfl, rfl⟩
  · rintro before earlier rfl hearlier
    rw [curve.getElem?_stops steps (by omega), Option.some_inj] at hearlier
    subst hearlier
    exact ⟨rfl, rfl⟩
  · exact congrArg (Option.getD · (curve.rotationAt steps index)) hstill
  · exact congrArg (Option.getD · (curve.rotationAt steps index)) hturned
  · have hzero := (Vector3.within_zero_sub_iff hfinite).mpr hequal
    exact (Rotor.facing?_eq_none_iff hfinite).mpr (.inl (hzero.mono (zpow_pos two_pos _).le))
  · rcases (Rotor.facing?_eq_none_iff hfinite).mp hstill with hsmall | hlost
    · exact (Vector3.within_zero_sub_iff hfinite).mp (hseen hsmall)
    · exact absurd (Vector3.isFinite_dot_self hfinite hnear) (Bool.eq_false_iff.mp hlost)

/-- A walk whose second step does not move: the traveller turns with the first and stays so. -/
theorem halting_walk_keeps_rotation :
    let curve : Curve :=
      ⟨.unit, fun parameter ↦ ⟨0, if parameter < 0.5 then parameter else 0.5, 0⟩⟩
    curve.domain.isBounded = true ∧ ∃ first second, (curve.walk 2).result = .ok [first, second] ∧
      Rotor.facing? first.location = some first.rotation ∧
      (second.location == first.location) = true ∧ second.rotation = first.rotation := by
  intro curve
  have hbounded : curve.domain.isBounded = true := by decide +kernel
  obtain ⟨-, stops, hwalk, -, hstops⟩ :=
    turns_unless_squares_are_lost curve 2 (by decide) hbounded
  obtain rfl : curve.stops 2 = stops := by
    rw [curve.walk_of_bounded 2 (by decide) hbounded] at hwalk
    exact Except.ok.inj hwalk
  obtain ⟨previous, rotation, hstart, -, -, hturned, -⟩ := hstops 0 (curve.stopAt 2 1) rfl
  obtain ⟨previous', rotation', -, hbefore, hkept, -, hmove⟩ := hstops 1 (curve.stopAt 2 2) rfl
  obtain ⟨rfl, rfl⟩ := hstart rfl
  obtain ⟨rfl, rfl⟩ := hbefore 0 (curve.stopAt 2 1) rfl rfl
  have hequal : ((curve.stopAt 2 2).location == (curve.stopAt 2 1).location) = true := by
    decide +kernel
  refine ⟨hbounded, curve.stopAt 2 1, curve.stopAt 2 2, hwalk, ?_, hequal, ?_⟩
  · decide +kernel
  · refine hkept ((hmove ?_).1 hequal)
    decide +kernel

/-- A short direction and a far one that are not faced, and a walk that moves to the side without
turning the traveller. -/
theorem short_and_far_moves_are_not_faced :
    let short : Point := ⟨1e-30, 0, 0⟩
    let far : Point := ⟨1e30, 0, 0⟩
    let curve : Curve := ⟨.unit, fun parameter ↦ ⟨0, parameter * 1e-30, 0⟩⟩
    short.IsFinite ∧ (short == Vector3.zero) = false ∧ Rotor.facing? short = none ∧
      far.IsFinite ∧ (far == Vector3.zero) = false ∧ Rotor.facing? far = none ∧
      ∃ stop, (curve.walk 1).result = .ok [stop] ∧
        (stop.location == curve.sampleClamped curve.domain.first) = false ∧
        stop.rotation = .identity := by
  refine ⟨by decide +kernel, by decide +kernel, by decide +kernel, by decide +kernel,
    by decide +kernel, by decide +kernel, ?_⟩
  refine ⟨_, congrArg Logged.result (Curve.walk_of_bounded _ 1 (by decide) (by decide +kernel)), ?_,
    ?_⟩
  · decide +kernel
  · decide +kernel

end Lindenmayer
