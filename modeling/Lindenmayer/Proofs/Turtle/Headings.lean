import Lindenmayer.Proofs.Single.Bounds
import Lindenmayer.Proofs.Turtle.Course

/-!
# Headings stay within half a turn

Whole turns are taken away from a heading in rounded arithmetic, and yet a heading that is wrapped
lies strictly above minus half a turn and not above half a turn, with no exception at the ends.

The remainder of an angle is exact and the whole turn is exactly twice the half one (`value_tau`),
so only two roundings could do harm. A negative remainder is moved up by a whole turn, which rounds,
but not beyond the whole turn and by no more than `2 ^ (-22)` (`isRounded_rest_add_tau`). What is
left beyond half a turn is moved down again, and that is exact: every number between a half and a
whole turn is a multiple of `2 ^ (-22)`, and the difference is small enough to have its digits in a
mantissa (`isRounded_sub_tau`). Adding the turn again therefore leads back (`residue_sub_tau`), and
wrapping a heading does not change it (`isHeading_sub_tau`).

`IsHeading` is the invariant of a run: it holds of a new turtle and is kept by every command whose
turn, if it is one, is by a finite angle (`isHeading_perform`), since a heading and a finite angle
never add up to an infinity (`IsHeading.isFinite_add`). `headings_stay_wrapped` puts both together.
`EndsIn` stands for a loop that has come to an end, so that the two loops of taking and adding whole
turns can be compared with the single step that `wrapHeading` takes.
-/

set_option autoImplicit false

namespace Lindenmayer

open Single

/-! ### Half a turn and a whole one -/

theorem isFinite_pi : pi.isFinite = true := rfl

theorem isFinite_neg_pi : (-pi).isFinite = true := rfl

theorem isFinite_tau : tau.isFinite = true := rfl

theorem value_pi : value pi = 13176795 * 2 ^ (-22 : ℤ) := by
  have hparts : parts pi = .finite .positive 13176795 (-22) (by decide) := rfl
  rw [value, hparts, exactValue_positive, Nat.cast_ofNat]

/-- A whole turn is exactly twice half a turn. -/
theorem value_tau : value tau = 2 * value pi := by
  have hparts : parts tau = .finite .positive 13176795 (-21) (by decide) := rfl
  rw [value, hparts, exactValue_positive, Nat.cast_ofNat, value_pi]
  norm_num

theorem value_neg_pi : value (-pi) = -value pi := by
  have hparts : parts (-pi) = .finite .negative 13176795 (-22) (by decide) := rfl
  rw [value, hparts, exactValue_negative, Nat.cast_ofNat, value_pi]

/-- What is equal to zero is one of the two zeros. -/
theorem within_zero_of_beq {zero : Float32} (h : (zero == 0) = true) : Within 0 zero := by
  change (parts zero).beq (parts 0) = true at h
  rw [within_zero_iff, isFinite_eq, value]
  obtain ⟨-, -, heq | ⟨heq, -⟩ | ⟨heq, -⟩⟩ :=
    (Float.Model.UnpackedFloat.beq_iff_ne_notANumber_and_eq _ _).mp h
  all_goals
    rw [heq]
    exact ⟨rfl, rfl⟩

theorem value_pi_bounds : 2 < value pi ∧ value pi < 4 := by
  rw [value_pi]
  norm_num

theorem value_tau_pos : 0 < value tau := by
  have := value_pi_bounds.1
  rw [value_tau]
  linarith

/-! ### The residue of an angle -/

/-- A number between zero and a whole turn, and how far it is from an angle, whole turns aside. -/
structure IsResidue (rest angle : Float32) : Prop where
  isFinite : rest.isFinite = true
  nonneg : 0 ≤ value rest
  le_tau : value rest ≤ value tau
  turns : ∃ turns : ℤ, |value rest - (value angle + turns * value tau)| ≤ 1 / 2 ^ 22 ∧
    (0 ≤ value angle → value rest = value angle + turns * value tau)

/-- Moving a negative remainder up by a whole turn rounds, but not beyond the whole turn. -/
theorem isRounded_rest_add_tau {rest : Float32} (hfinite : rest.isFinite = true)
    (hneg : value rest < 0) (hlt : -value tau < value rest) :
    (rest + tau).isFinite = true ∧ 0 ≤ value (rest + tau) ∧ value (rest + tau) ≤ value tau ∧
      |value (rest + tau) - (value rest + value tau)| ≤ 1 / 2 ^ 22 := by
  have hsum := isRounded_add hfinite isFinite_tau
  set exact := value rest + value tau with hexact
  have hpos : 0 < exact := by linarith
  have hle : exact ≤ value tau := by linarith
  have hnonneg : 0 ≤ nearest exact := nearest_nonneg hpos.le
  have htau : nearest exact ≤ value tau :=
    (nearest_mono hle).trans_eq (nearest_of_grid (grid_value tau))
  have hlargest : |nearest exact| ≤ largest := by
    rw [abs_of_nonneg hnonneg]
    exact htau.trans ((le_abs_self _).trans (abs_value_le tau))
  rw [IsRounded, if_pos hlargest] at hsum
  obtain ⟨hsumFinite, hvalue⟩ := hsum
  have herror : |nearest exact - exact| ≤ 1 / 2 ^ 22 := by
    have hplace : lastPlace exact ≤ -21 := by
      refine lastPlace_le hpos.ne' (by norm_num) ?_
      have hbound := value_pi_bounds.2
      rw [value_tau] at hle
      rw [abs_of_pos hpos]
      norm_num
      linarith
    have hunit : (2 : ℚ) ^ lastPlace exact ≤ 2 ^ (-21 : ℤ) := zpow_le_zpow_right₀ one_le_two hplace
    have herror := abs_nearest_sub_le exact
    norm_num at hunit
    linarith
  rw [hvalue]
  exact ⟨hsumFinite, hnonneg, htau, herror⟩

theorem isResidue_residue {angle : Float32} (hfinite : angle.isFinite = true) :
    IsResidue (residue angle tau) angle := by
  obtain ⟨hrest, habs, -, hnonneg, -, count, hcount⟩ := remainder_spec hfinite value_tau_pos.ne'
  obtain ⟨hlow, hhigh⟩ := abs_lt.mp habs
  rw [abs_of_pos value_tau_pos] at hlow hhigh
  have habs_tau : tau.abs = tau := rfl
  rw [residue]
  by_cases hneg : remainder angle tau < 0
  · rw [if_pos hneg, habs_tau]
    rw [lt_iff hrest rfl, value_zero] at hneg
    obtain ⟨hsum, hsum_nonneg, hsum_le, herror⟩ := isRounded_rest_add_tau hrest hneg hlow
    refine ⟨hsum, hsum_nonneg, hsum_le, 1 - count, ?_, fun hangle ↦ ?_⟩
    · have hturns : value angle + (1 - count : ℤ) * value tau =
          value (remainder angle tau) + value tau := by
        conv_lhs => rw [hcount]
        push_cast
        ring
      rwa [hturns]
    · exact absurd (hnonneg hangle) (not_le.mpr hneg)
  · rw [if_neg hneg]
    rw [lt_iff hrest rfl, value_zero, not_lt] at hneg
    have hexact : value (remainder angle tau) = value angle + (-count : ℤ) * value tau := by
      rw [hcount]
      push_cast
      ring
    refine ⟨hrest, hneg, hhigh.le, -count, ?_, fun _ ↦ hexact⟩
    rw [← hexact, sub_self, abs_zero]
    norm_num

/-! ### Wrapping -/

/-- Beyond half a turn, taking away a whole turn is exact, and adding it again leads back. -/
theorem isRounded_sub_tau {rest : Float32} (hfinite : rest.isFinite = true)
    (hlow : value pi < value rest) (hhigh : value rest ≤ value tau) :
    (rest - tau).isFinite = true ∧ value (rest - tau) = value rest - value tau := by
  obtain ⟨multiple, hmultiple⟩ : ∃ multiple : ℤ, value rest = multiple * 2 ^ (-22 : ℤ) := by
    refine (grid_value rest).exists_multiple ?_
    have hbound := value_pi_bounds.1
    rw [abs_of_pos (by linarith)]
    norm_num
    linarith
  have hdifference : value rest - value tau = (multiple - 26353590 : ℤ) * 2 ^ (-22 : ℤ) := by
    rw [hmultiple, value_tau, value_pi]
    push_cast
    ring
  have habs : |value rest - value tau| ≤ value pi := by
    rw [value_tau] at hhigh ⊢
    rw [abs_le]
    constructor <;> linarith
  have hgrid : Grid (value rest - value tau) := by
    have hunit : (0 : ℚ) < 2 ^ (-22 : ℤ) := zpow_pos two_pos _
    rw [hdifference, abs_mul, abs_of_pos hunit, value_pi] at habs
    have hdigits : |((multiple - 26353590 : ℤ) : ℚ)| ≤ 13176795 := le_of_mul_le_mul_right habs hunit
    have hmantissa : |multiple - 26353590| ≤ 13176795 := mod_cast hdigits
    rw [hdifference]
    exact grid_of_abs_le (hmantissa.trans (by norm_num)) (by norm_num)
  exact (isRounded_sub hfinite isFinite_tau).of_grid hgrid (habs.trans ((le_abs_self _).trans
    (abs_value_le pi)))

/-- What makes a number a heading: it lies within half a turn, the end included that lies to the
left, and wrapping it changes nothing. -/
structure IsHeading (heading : Float32) : Prop where
  isFinite : heading.isFinite = true
  lower : -value pi < value heading
  upper : value heading ≤ value pi
  fixed : wrapHeading heading = heading

/-- A number between zero and half a turn is a heading. -/
theorem isHeading_of_nonneg {heading : Float32} (hfinite : heading.isFinite = true)
    (hnonneg : 0 ≤ value heading) (hle : value heading ≤ value pi) : IsHeading heading := by
  have hpi := value_pi_bounds.1
  refine ⟨hfinite, by linarith, hle, ?_⟩
  have hremainder : remainder heading tau = heading := by
    refine remainder_of_abs_lt hfinite ?_
    rw [abs_of_nonneg hnonneg, abs_of_pos value_tau_pos, value_tau]
    linarith
  have hresidue : residue heading tau = heading := by
    rw [residue, hremainder, if_neg]
    rw [lt_iff hfinite rfl, value_zero, not_lt]
    exact hnonneg
  rw [wrapHeading, hresidue, if_neg]
  rw [lt_iff isFinite_pi hfinite, not_lt]
  exact hle

/-- What is left of a residue beyond half a turn, after a whole turn, has that residue again:
putting the turn back needs no rounding, for the sum is a single already. -/
theorem residue_sub_tau {rest : Float32} (hfinite : rest.isFinite = true)
    (hlow : value pi < value rest) (hhigh : value rest < value tau) :
    residue (rest - tau) tau = rest := by
  obtain ⟨hfiniteSub, hvalue⟩ := isRounded_sub_tau hfinite hlow hhigh.le
  have hpi := value_pi_bounds.1
  have hneg : value (rest - tau) < 0 := by
    rw [hvalue]
    exact sub_neg.mpr hhigh
  have hremainder : remainder (rest - tau) tau = rest - tau := by
    refine remainder_of_abs_lt hfiniteSub ?_
    rw [abs_of_neg hneg, abs_of_pos value_tau_pos]
    linarith
  have hresidue : residue (rest - tau) tau = rest - tau + tau := by
    rw [residue, hremainder, if_pos]
    · rfl
    · rwa [lt_iff hfiniteSub rfl, value_zero]
  have hsum := isRounded_add hfiniteSub isFinite_tau
  rw [hvalue, sub_add_cancel] at hsum
  obtain ⟨hfiniteSum, hback⟩ := hsum.of_grid (grid_value rest) (abs_value_le rest)
  rw [hresidue]
  refine eq_of_value_eq hfiniteSum hfinite hback ?_
  rw [hback]
  linarith

/-- What is left of a residue beyond half a turn, after a whole turn, is a heading. -/
theorem isHeading_sub_tau {rest : Float32} (hfinite : rest.isFinite = true)
    (hlow : value pi < value rest) (hhigh : value rest ≤ value tau) : IsHeading (rest - tau) := by
  obtain ⟨hfiniteSub, hvalue⟩ := isRounded_sub_tau hfinite hlow hhigh
  have hpi := value_pi_bounds.1
  rcases hhigh.lt_or_eq with hlt | htau
  · have hbounds : -value pi < value (rest - tau) ∧ value (rest - tau) ≤ value pi := by
      rw [value_tau] at hvalue hlt
      constructor <;> linarith
    refine ⟨hfiniteSub, hbounds.1, hbounds.2, ?_⟩
    rw [wrapHeading, residue_sub_tau hfinite hlow hlt,
      if_pos ((lt_iff isFinite_pi hfinite).mpr hlow)]
  · rw [htau, sub_self] at hvalue
    exact isHeading_of_nonneg hfiniteSub hvalue.ge (by linarith)

theorem isHeading_wrapHeading {angle : Float32} (hfinite : angle.isFinite = true) :
    IsHeading (wrapHeading angle) := by
  obtain ⟨hrest, hnonneg, hle, -⟩ := isResidue_residue hfinite
  rw [wrapHeading]
  by_cases hbeyond : pi < residue angle tau
  · rw [if_pos hbeyond]
    exact isHeading_sub_tau hrest ((lt_iff isFinite_pi hrest).mp hbeyond) hle
  · rw [if_neg hbeyond]
    exact isHeading_of_nonneg hrest hnonneg (not_lt.mp ((lt_iff isFinite_pi hrest).not.mp hbeyond))

/-- A heading differs from the angle that was wrapped by whole turns, apart from one rounding. -/
theorem exists_turns_wrapHeading {angle : Float32} (hfinite : angle.isFinite = true) :
    ∃ turns : ℤ, |value (wrapHeading angle) - (value angle + turns * value tau)| ≤ 1 / 2 ^ 22 ∧
      (0 ≤ value angle → value (wrapHeading angle) = value angle + turns * value tau) := by
  obtain ⟨hrest, hnonneg, hle, turns, herror, hexact⟩ := isResidue_residue hfinite
  rw [wrapHeading]
  by_cases hbeyond : pi < residue angle tau
  · have hvalue := (isRounded_sub_tau hrest ((lt_iff isFinite_pi hrest).mp hbeyond) hle).2
    have hturns : value angle + (turns - 1 : ℤ) * value tau =
        value angle + turns * value tau - value tau := by
      push_cast
      ring
    refine ⟨turns - 1, ?_, fun hangle ↦ ?_⟩
    · rwa [if_pos hbeyond, hvalue, hturns, sub_sub_sub_cancel_right]
    · rw [if_pos hbeyond, hvalue, hturns, hexact hangle]
  · rw [if_neg hbeyond]
    exact ⟨turns, herror, hexact⟩

/-! ### Loops -/

/-- A loop that takes a step as long as a condition holds has come to an end. -/
inductive EndsIn {α : Type} (condition : α → Prop) (step : α → α) : α → α → Prop
  | stop {state : α} : ¬ condition state → EndsIn condition step state state
  | next {state result : α} : condition state → EndsIn condition step (step state) result →
    EndsIn condition step state result

/-- Taking away whole turns as long as a number is beyond half a turn, and then adding whole turns
as long as it is not above the opposite half turn, both come to an end: one turn is taken away at
most, and none is added. -/
theorem endsIn_wrapHeading {angle : Float32} (hfinite : angle.isFinite = true) :
    EndsIn (pi < ·) (· - tau) (residue angle tau) (wrapHeading angle) ∧
      EndsIn (· ≤ -pi) (· + tau) (wrapHeading angle) (wrapHeading angle) := by
  have hheading := isHeading_wrapHeading hfinite
  have hstop : ¬ pi < wrapHeading angle := by
    rw [lt_iff isFinite_pi hheading.isFinite, not_lt]
    exact hheading.upper
  constructor
  · by_cases hbeyond : pi < residue angle tau
    · have hstep : wrapHeading angle = residue angle tau - tau := by
        rw [wrapHeading, if_pos hbeyond]
      refine .next hbeyond ?_
      rw [hstep] at hstop ⊢
      exact .stop hstop
    · have hstay : wrapHeading angle = residue angle tau := by rw [wrapHeading, if_neg hbeyond]
      rw [hstay] at hstop ⊢
      exact .stop hstop
  · refine .stop ?_
    rw [le_iff hheading.isFinite isFinite_neg_pi, value_neg_pi, not_le]
    exact hheading.lower

/-! ### Turning -/

theorem isHeading_zero : IsHeading 0 :=
  isHeading_of_nonneg rfl le_rfl (by
    rw [value_zero]
    exact zero_le_two.trans value_pi_bounds.1.le)

/-- The sum of a heading and a finite angle does not overflow. -/
theorem IsHeading.isFinite_add {heading angle : Float32} (h : IsHeading heading)
    (hfinite : angle.isFinite = true) : (heading + angle).isFinite = true := by
  refine ((isRounded_add h.isFinite hfinite).of_abs_lt ?_).1
  have hheading : |value heading| < 4 := by
    have hlower := h.lower
    have hupper := h.upper
    have hpi := value_pi_bounds.2
    rw [abs_lt]
    constructor <;> linarith
  have hangle := abs_value_le angle
  have htriangle := abs_add_le (value heading) (value angle)
  rw [largest] at hangle
  norm_num at hangle ⊢
  linarith

/-- Turning by nothing leaves a heading as it is, apart from the sign of a zero. -/
theorem IsHeading.wrapHeading_add_zero {heading zero : Float32} (h : IsHeading heading)
    (hzero : (zero == 0) = true) : (wrapHeading (heading + zero) == heading) = true := by
  obtain ⟨hsumFinite, hsumValue⟩ := add_within_zero h.isFinite (within_zero_of_beq hzero)
  have hwrap : wrapHeading (heading + zero) = heading + zero := by
    rcases eq_or_ne (value heading) 0 with hheading | hheading
    · refine (isHeading_of_nonneg hsumFinite ?_ ?_).fixed
      · rw [hsumValue, hheading]
      · rw [hsumValue]
        exact h.upper
    · rw [eq_of_value_eq hsumFinite h.isFinite hsumValue (hsumValue ▸ hheading), h.fixed]
  rw [hwrap, beq_iff hsumFinite h.isFinite, hsumValue]

/-- Only turning changes a heading. -/
theorem Snapshot.heading_perform [Trigonometry] (snapshot : Snapshot) (command : Command) :
    (snapshot.perform command).heading =
      match command with
      | .turn angle => wrapHeading (snapshot.heading + angle)
      | _ => snapshot.heading := by
  cases command with
  | forward distance => rw [perform, forward_eq]
  | turn angle => rw [perform, turn_eq]
  | penDown => rw [perform, lowerPen_eq]
  | penUp => rw [perform, liftPen_eq]
  | push | pop | ignore => rfl

/-- A command that turns by a finite angle, if it turns at all, keeps headings. -/
theorem isHeading_perform [Trigonometry] {snapshot : Snapshot}
    (h : IsHeading snapshot.heading) {command : Command}
    (hfinite : ∀ angle, command = .turn angle → angle.isFinite = true) :
    IsHeading (snapshot.perform command).heading := by
  rw [Snapshot.heading_perform]
  cases command with
  | turn angle => exact isHeading_wrapHeading (h.isFinite_add (hfinite angle rfl))
  | _ => exact h

/-- Every snapshot of a new turtle that has turned by finite angles only has a heading. -/
theorem isHeading_of_mem_snapshots_after (name : String) (kind : CurveKind) (setup : Setup)
    {commands : List Command}
    (hfinite : ∀ angle, Command.turn angle ∈ commands → angle.isFinite = true) :
    ∀ snapshot ∈ ((Turtle.initial name kind setup).after commands).snapshots,
      IsHeading snapshot.heading := by
  apply Turtle.forall_mem_snapshots_after
  · intro snapshot hsnapshot
    rw [List.mem_singleton.mp hsnapshot]
    exact isHeading_zero
  · intro command hcommand snapshot hheading
    refine isHeading_perform hheading fun angle hangle ↦ ?_
    exact hfinite angle (hangle ▸ hcommand)

/-- Headings are wrapped into half a turn to either side, the end on the left included.

For every finite angle, taking whole turns away from its residue as long as it is beyond half a turn
comes to an end, and so does adding whole turns as long as it is not above the opposite end. What
they end in lies within half a turn, differs from the angle by whole turns and an error of at most
`2 ^ (-22)`, or by whole turns alone if the angle is not negative, and is not changed by wrapping it
again.

In any run of a turtle in which all turns are by finite angles, the headings of the live snapshot
and of the saved ones stay within half a turn, and turning by zero does not change them. -/
theorem headings_stay_wrapped :
    (∀ angle : Float32, angle.isFinite = true →
      (∃ between, EndsIn (pi < ·) (· - tau) (residue angle tau) between ∧
        EndsIn (· ≤ -pi) (· + tau) between (wrapHeading angle)) ∧
      (wrapHeading angle).isFinite = true ∧ -pi < wrapHeading angle ∧ wrapHeading angle ≤ pi ∧
      (∃ turns : ℤ,
        |value (wrapHeading angle) - (value angle + turns * value tau)| ≤ 1 / 2 ^ 22 ∧
          (0 ≤ angle → value (wrapHeading angle) = value angle + turns * value tau)) ∧
      wrapHeading (wrapHeading angle) = wrapHeading angle) ∧
    ∀ {σ η : Type} [Canvas σ η] (name : String) (kind : CurveKind) (setup : Setup) (canvas : σ)
      (commands : List Command),
      (∀ angle, Command.turn angle ∈ commands → angle.isFinite = true) →
      let start : Plotter σ η := { turtle := .initial name kind setup, canvas := canvas }
      let turtle := (start.attemptAll commands).turtle
      ∀ snapshot ∈ turtle.live :: turtle.saved,
        -pi < snapshot.heading ∧ snapshot.heading ≤ pi ∧
          ∀ zero : Float32, (zero == 0) = true →
            ((snapshot.turn zero).heading == snapshot.heading) = true := by
  have hbounds {heading : Float32} (h : IsHeading heading) : -pi < heading ∧ heading ≤ pi := by
    rw [lt_iff isFinite_neg_pi h.isFinite, le_iff h.isFinite isFinite_pi, value_neg_pi]
    exact ⟨h.lower, h.upper⟩
  constructor
  · intro angle hfinite
    have hheading := isHeading_wrapHeading hfinite
    obtain ⟨hlower, hupper⟩ := hbounds hheading
    obtain ⟨turns, herror, hexact⟩ := exists_turns_wrapHeading hfinite
    refine ⟨⟨_, endsIn_wrapHeading hfinite⟩, hheading.isFinite, hlower, hupper,
      ⟨turns, herror, fun hangle ↦ hexact ?_⟩, hheading.fixed⟩
    rwa [le_iff rfl hfinite, value_zero] at hangle
  · intro σ η _ name kind setup canvas commands hfinite start turtle snapshot hsnapshot
    have hturtle : turtle = (Turtle.initial name kind setup).after commands :=
      start.turtle_attemptAll commands
    rw [hturtle] at hsnapshot
    have hheading := isHeading_of_mem_snapshots_after name kind setup hfinite snapshot hsnapshot
    obtain ⟨hlower, hupper⟩ := hbounds hheading
    refine ⟨hlower, hupper, fun zero hzero ↦ ?_⟩
    rw [Snapshot.turn_eq]
    exact hheading.wrapHeading_add_zero hzero

/-- The smallest turn to the right. Its residue is rounded up to a whole turn, and it is wrapped to
zero; a turtle that turns so, to the left again and by half a turn has its headings within half a
turn all the way. -/
theorem smallest_right_turn_is_wrapped_to_zero :
    let angle : Float32 := .ofBits 0x80000001
    let commands : List Command := [.turn angle, .push, .turn 1, .push, .turn pi]
    let start : Plotter Sketchbook Nat :=
      { turtle := .initial "compass" .poly {}, canvas := {} }
    let turtle := (start.attemptAll commands).turtle
    angle.isFinite = true ∧ residue angle tau = tau ∧ wrapHeading angle = 0 ∧
      (∃ between, EndsIn (pi < ·) (· - tau) (residue angle tau) between ∧
        EndsIn (· ≤ -pi) (· + tau) between (wrapHeading angle)) ∧
      wrapHeading (wrapHeading angle) = wrapHeading angle ∧
      (∀ angle, Command.turn angle ∈ commands → angle.isFinite = true) ∧
      turtle.saved.length = 2 ∧
      ∀ snapshot ∈ turtle.live :: turtle.saved, -pi < snapshot.heading ∧ snapshot.heading ≤ pi := by
  intro angle commands start turtle
  obtain ⟨hangles, hruns⟩ := headings_stay_wrapped
  have hangle : angle.isFinite = true := by decide +kernel
  have hresidue : residue angle tau = tau := by decide +kernel
  have hwrapped : wrapHeading angle = 0 := by decide +kernel
  have hfinite : ∀ angle, Command.turn angle ∈ commands → angle.isFinite = true := by
    intro other hother
    simp only [commands, List.mem_cons, List.not_mem_nil, Command.turn.injEq, reduceCtorEq,
      false_or, or_false] at hother
    rcases hother with rfl | rfl | rfl
    · exact hangle
    · rfl
    · exact isFinite_pi
  obtain ⟨hends, -, -, -, -, hfixed⟩ := hangles angle hangle
  refine ⟨hangle, hresidue, hwrapped, hends, hfixed, hfinite, rfl, fun snapshot hsnapshot ↦ ?_⟩
  obtain ⟨hlower, hupper, -⟩ :=
    hruns "compass" .poly {} ({} : Sketchbook) commands hfinite snapshot hsnapshot
  exact ⟨hlower, hupper⟩

end Lindenmayer
