import Lindenmayer.Path.Walk

/-!
# The stops of a walk

A walk carries two things from step to step, the place it has come to and the rotation of the last
step that moved. Both can be said without the walk. `Curve.site` is the place after a number of
steps, `Curve.turned?` the rotation towards which a step goes, if it goes anywhere, and
`Curve.rotationAt` the rotation after a number of steps. `Curve.rotationAt_eq_of_turned` and
`Curve.rotationAt_eq_identity` look back: the rotation is that of the last step that moved, however
many steps without a move came after it, and the identity if no step has moved yet.

`Curve.visitFrom_eq` is the invariant of the walk: from the place and the rotation after some steps
it goes on to show the stops of the remaining steps in order. `Curve.walk_stops_in_order` says what
a visitor sees from the beginning, and that a refused walk shows him nothing.
-/

set_option autoImplicit false

namespace Lindenmayer

namespace Curve

section Visits

variable (curve : Curve) (steps : Nat)

/-! ### Places and rotations -/

/-- The place after a number of steps. The walk begins at the first end of the domain. -/
def site : Nat → Point
  | 0 => curve.sampleClamped curve.domain.first
  | done + 1 => curve.sampleClamped (curve.domain.parameter steps (done + 1))

/-- The rotation towards which a step goes, unless it goes nowhere. -/
def turned? (step : Nat) : Option (Rotor Float32) :=
  Rotor.facing? (curve.site steps step - curve.site steps (step - 1))

/-- The rotation after a number of steps: a step that goes nowhere keeps the one before. -/
def rotationAt : Nat → Rotor Float32
  | 0 => .identity
  | done + 1 => (curve.turned? steps (done + 1)).getD (rotationAt done)

/-- The stop at the end of a step. -/
def stopAt (step : Nat) : Stop where
  step := step
  parameter := curve.domain.parameter steps step
  location := curve.site steps step
  rotation := curve.rotationAt steps step

theorem rotationAt_eq_of_turned {moved done : Nat} (hpos : 0 < moved) (hle : moved ≤ done)
    {rotation : Rotor Float32} (hturned : curve.turned? steps moved = some rotation)
    (hstill : ∀ step, moved < step → step ≤ done → curve.turned? steps step = none) :
    curve.rotationAt steps done = rotation := by
  induction done with
  | zero => omega
  | succ done ih =>
    rcases Nat.lt_or_eq_of_le hle with hlt | rfl
    · rw [rotationAt, hstill (done + 1) hlt (Nat.le_refl _), Option.getD_none]
      exact ih (by omega) fun step hmoved hdone ↦ hstill step hmoved (by omega)
    · rw [rotationAt, hturned, Option.getD_some]

theorem rotationAt_eq_identity {done : Nat}
    (hstill : ∀ step, 0 < step → step ≤ done → curve.turned? steps step = none) :
    curve.rotationAt steps done = .identity := by
  induction done with
  | zero => rfl
  | succ done ih =>
    rw [rotationAt, hstill (done + 1) (Nat.succ_pos done) (Nat.le_refl _), Option.getD_none]
    exact ih fun step hpos hdone ↦ hstill step hpos (by omega)

/-! ### The walk -/

theorem stopAfter_eq (done : Nat) :
    curve.stopAfter steps (done + 1) (curve.site steps done) (curve.rotationAt steps done) =
      curve.stopAt steps (done + 1) := rfl

variable {σ : Type} (visit : σ → Stop → σ)

/-- From the place and the rotation after some steps the walk goes on with the stops of the other
steps. -/
theorem visitFrom_eq (done remaining : Nat) (h : done + remaining = steps) (visitor : σ) :
    curve.visitFrom steps visit remaining (curve.site steps done) (curve.rotationAt steps done)
        visitor =
      ((List.range' (done + 1) remaining).map (curve.stopAt steps)).foldl visit visitor := by
  induction remaining generalizing done visitor with
  | zero => rfl
  | succ remaining ih =>
    have hstep : steps - remaining = done + 1 := by omega
    rw [visitFrom, hstep, stopAfter_eq, List.range'_succ, List.map_cons, List.foldl_cons]
    exact ih (done + 1) (by omega) (visit visitor (curve.stopAt steps (done + 1)))

/-- The stops of all steps, in order. -/
def stops : List Stop := (List.range' 1 steps).map (curve.stopAt steps)

theorem length_stops : (curve.stops steps).length = steps := by
  rw [stops, List.length_map, List.length_range']

theorem getElem?_stops {index : Nat} (h : index < steps) :
    (curve.stops steps)[index]? = some (curve.stopAt steps (index + 1)) := by
  rw [stops, List.getElem?_map, List.getElem?_range' h, Option.map_some, Nat.one_mul,
    Nat.add_comm]

/-- A walk that is not refused shows all stops in order. -/
theorem walkWith_of_bounded (hsteps : steps ≠ 0) (hbounded : curve.domain.isBounded = true)
    (visitor : σ) :
    curve.walkWith steps visit visitor =
      ((curve.stops steps).foldl visit visitor,
        ⟨.ok (), [.walked steps curve.domain.first curve.domain.last]⟩) := by
  rw [walkWith, if_neg hsteps, if_pos hbounded]
  exact congrArg (·, _) (curve.visitFrom_eq steps visit 0 steps (Nat.zero_add steps) visitor)

theorem walk_of_bounded (hsteps : steps ≠ 0) (hbounded : curve.domain.isBounded = true) :
    curve.walk steps =
      ⟨.ok (curve.stops steps), [.walked steps curve.domain.first curve.domain.last]⟩ := by
  rw [walk, curve.walkWith_of_bounded steps _ hsteps hbounded]
  simp only [Except.map, List.foldl_flip_cons_eq_append, List.append_nil, List.reverse_reverse,
    List.map_id_fun', id_eq]

end Visits

/-- What a visitor sees of a walk along any curve.

A walk without steps is refused, and so is, if there are steps, a walk along a domain with an end
that is not finite. The visitor of a refused walk is left as he was, and there is no event.

Every other walk shows the visitor as many stops as there are steps, in order, and leaves one event.
Stop number `i` has the parameter that lies `i` steps from the first end of the domain, and the
place of the curve there. Its rotation is the one towards which the last step up to `i` went that
went anywhere, or the identity if none of them did. The places between which the steps go are those
of the stops, after the place at the first end of the domain. -/
theorem walk_stops_in_order (curve : Curve) (steps : Nat) {σ : Type} (visit : σ → Stop → σ)
    (visitor : σ) :
    let walked := curve.walkWith steps visit visitor
    let first := curve.domain.first
    let last := curve.domain.last
    (steps = 0 → walked = (visitor, ⟨.error .noSteps, []⟩)) ∧
      (steps ≠ 0 → ¬ (first.isFinite ∧ last.isFinite) →
        walked = (visitor, ⟨.error .unbounded, []⟩)) ∧
      (steps ≠ 0 → first.isFinite ∧ last.isFinite →
        ∃ (stops : List Stop) (places : Nat → Point),
          stops.length = steps ∧
          walked = (stops.foldl visit visitor, ⟨.ok (), [.walked steps first last]⟩) ∧
          curve.walk steps = ⟨.ok stops, [.walked steps first last]⟩ ∧
          places 0 = curve.sampleClamped first ∧
          ∀ i, 1 ≤ i → i ≤ steps → ∃ stop, stops[i - 1]? = some stop ∧
            stop.step = i ∧
            stop.parameter = first + (last - first) * (Float32.ofNat i / Float32.ofNat steps) ∧
            stop.location = curve.sampleClamped stop.parameter ∧
            places i = stop.location ∧
            (∀ j rotation, 1 ≤ j → j ≤ i →
              Rotor.facing? (places j - places (j - 1)) = some rotation →
              (∀ k, j < k → k ≤ i → Rotor.facing? (places k - places (k - 1)) = none) →
                stop.rotation = rotation) ∧
            ((∀ k, 1 ≤ k → k ≤ i → Rotor.facing? (places k - places (k - 1)) = none) →
              stop.rotation = .identity)) := by
  intro walked first last
  have hbounded_iff : curve.domain.isBounded = true ↔ first.isFinite ∧ last.isFinite :=
    Bool.and_eq_true_iff
  refine ⟨fun hsteps ↦ ?_, fun hsteps hunbounded ↦ ?_, fun hsteps hfinite ↦ ?_⟩
  · simp only [walked, walkWith, if_pos hsteps]
  · simp only [walked, walkWith, if_neg hsteps, if_neg fun h ↦ hunbounded (hbounded_iff.mp h)]
  · have hbounded := hbounded_iff.mpr hfinite
    refine ⟨curve.stops steps, curve.site steps, curve.length_stops steps,
      curve.walkWith_of_bounded steps visit hsteps hbounded visitor,
      curve.walk_of_bounded steps hsteps hbounded, rfl, fun i hpos hle ↦ ?_⟩
    obtain ⟨index, rfl⟩ : ∃ index, i = index + 1 := ⟨i - 1, by omega⟩
    refine ⟨curve.stopAt steps (index + 1), curve.getElem?_stops steps hle, rfl, rfl, rfl, rfl, ?_,
      ?_⟩
    · intro j rotation hmoved hdone hturned hstill
      exact curve.rotationAt_eq_of_turned steps hmoved hdone hturned hstill
    · exact curve.rotationAt_eq_identity steps

end Curve

end Lindenmayer
