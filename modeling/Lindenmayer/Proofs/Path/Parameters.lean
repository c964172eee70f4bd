import Lindenmayer.Proofs.Path.ArcLength
import Lindenmayer.Proofs.Path.Stops
import Lindenmayer.Proofs.Single.Count

/-!
# The parameters of a walk

A walk in equal steps adds a part of the length of the domain to its first end. In single precision
the length of the domain is rounded, and so is the sum. The parameters still climb: none is before
the first end, and none is before an earlier one (`Interval.parameter_mono`). But where they climb
to is `Interval.reach`, the first end with the rounded length added, and that need not be the last
end. It can be before it or behind it, and infinitely far behind it if the length is rounded to an
infinity, or if the sum is.

A parameter behind the last end shows in no place of the walk, for places are sampled at clamped
parameters. `walk_parameters_climb_to_reach` is the whole account: every stop is where the curve is
at its parameter if and only if the reach is not behind the last end, and the last parameter is the
last end if and only if two roundings in a row lead back to it.
-/

set_option autoImplicit false

namespace Lindenmayer

open Single

/-! ### Parameters in order -/

namespace Interval

variable (interval : Interval)

/-- The length of the interval, rounded. -/
def span : Float32 := interval.last - interval.first

/-- Where the last of any number of equal steps ends. -/
def reach : Float32 := interval.first + interval.span

section Bounded

variable {interval : Interval} (hbounded : interval.isBounded = true)

include hbounded

theorem isFinite_ends : interval.first.isFinite = true ∧ interval.last.isFinite = true :=
  Bool.and_eq_true_iff.mp hbounded

theorem value_first_lt_value_last : value interval.first < value interval.last := by
  obtain ⟨hfirst, hlast⟩ := isFinite_ends hbounded
  exact (lt_iff hfirst hlast).mp interval.first_lt_last

theorem isRounded_span : IsRounded interval.span (value interval.last - value interval.first) := by
  obtain ⟨hfirst, hlast⟩ := isFinite_ends hbounded
  exact isRounded_sub hlast hfirst

theorem value_span_pos (hspan : interval.span.isFinite = true) : 0 < value interval.span := by
  rw [(isRounded_span hbounded).value_eq hspan]
  exact (grid_value _).nearest_sub_pos (grid_value _) (value_first_lt_value_last hbounded)

/-- An infinite length is a positive one. -/
theorem parts_span (hspan : interval.span.isFinite = false) :
    parts interval.span = .infinity .positive := by
  have hround := isRounded_span hbounded
  rw [IsRounded] at hround
  split_ifs at hround with hfits hnegative
  · rw [hround.1] at hspan
    cases hspan
  · exact absurd hnegative (sub_pos.mpr (value_first_lt_value_last hbounded)).not_gt
  · exact hround

section Steps

variable {steps step : Nat} (hpos : 0 < step) (hle : step ≤ steps) (hword : steps < 2 ^ 64)

include hpos hle hword

/-- If the length is finite, so is every part of it. -/
theorem advance_spec (hspan : interval.span.isFinite = true) :
    (interval.span * (Float32.ofNat step / Float32.ofNat steps)).isFinite = true ∧
      0 ≤ value (interval.span * (Float32.ofNat step / Float32.ofNat steps)) := by
  obtain ⟨hfraction, hfraction_pos, hfraction_le⟩ := fraction_spec hpos hle hword
  have hspan_pos := value_span_pos hbounded hspan
  have hlow : value 0 ≤ value interval.span * value (Float32.ofNat step / Float32.ofNat steps) :=
    mul_nonneg hspan_pos.le hfraction_pos.le
  obtain ⟨hadvance, hnonneg, -⟩ := (isRounded_mul hspan hfraction).of_between hlow
    (mul_le_of_le_one_right hspan_pos.le hfraction_le)
  exact ⟨hadvance, hnonneg⟩

theorem isRounded_parameter (hspan : interval.span.isFinite = true) :
    IsRounded (interval.parameter steps step) (value interval.first +
      value (interval.span * (Float32.ofNat step / Float32.ofNat steps))) :=
  isRounded_add (isFinite_ends hbounded).1 (advance_spec hbounded hpos hle hword hspan).1

/-- If the length is infinite, so is every parameter. -/
theorem parts_parameter (hspan : interval.span.isFinite = false) :
    parts (interval.parameter steps step) = .infinity .positive := by
  obtain ⟨-, hfraction_pos, -⟩ := fraction_spec hpos hle hword
  exact parts_add_infinity (isFinite_ends hbounded).1
    (parts_infinity_mul (parts_span hbounded hspan) hfraction_pos)

theorem first_le_parameter : interval.first ≤ interval.parameter steps step := by
  obtain ⟨hfirst, -⟩ := isFinite_ends hbounded
  cases hspan : interval.span.isFinite with
  | true =>
    exact (isRounded_value hfirst).le (isRounded_parameter hbounded hpos hle hword hspan)
      (le_add_of_nonneg_right (advance_spec hbounded hpos hle hword hspan).2)
  | false =>
    have hparts := parts_parameter hbounded hpos hle hword hspan
    refine le_iff_level.mpr ⟨isNaN_of_isFinite hfirst, ?_, ?_⟩
    · rw [isNaN_eq, hparts]
      rfl
    · rw [level, level, hparts]
      exact le_top

end Steps

/-- Later steps do not lead back. -/
theorem parameter_mono {steps step later : Nat} (hpos : 0 < step) (hlater : step ≤ later)
    (hle : later ≤ steps) (hword : steps < 2 ^ 64) :
    interval.parameter steps step ≤ interval.parameter steps later := by
  have hpos' := hpos.trans_le hlater
  have hle' := hlater.trans hle
  cases hspan : interval.span.isFinite with
  | true =>
    have hround := isRounded_mul hspan (fraction_spec hpos hle' hword).1
    have hround' := isRounded_mul hspan (fraction_spec hpos' hle hword).1
    have hadvance := hround.level_mono hround' (mul_le_mul_of_nonneg_left
      (fraction_mono hpos hlater hle hword) (value_span_pos hbounded hspan).le)
    rw [level_le_iff (advance_spec hbounded hpos hle' hword hspan).1
      (advance_spec hbounded hpos' hle hword hspan).1] at hadvance
    exact (isRounded_parameter hbounded hpos hle' hword hspan).le
      (isRounded_parameter hbounded hpos' hle hword hspan) (add_le_add_right hadvance _)
  | false =>
    have hparts := parts_parameter hbounded hpos hle' hword hspan
    have hparts' := parts_parameter hbounded hpos' hle hword hspan
    rw [parts_inj.mp (hparts.trans hparts'.symm)]
    refine le_iff_level.mpr ⟨?_, ?_, le_rfl⟩ <;>
    · rw [isNaN_eq, hparts']
      rfl

/-- The last step ends at the reach, whatever the number of steps. -/
theorem parameter_self {steps : Nat} (hpos : 0 < steps) (hword : steps < 2 ^ 64) :
    interval.parameter steps steps = interval.reach := by
  have hwhole : interval.span * 1 = interval.span := by
    cases hspan : interval.span.isFinite with
    | true =>
      obtain ⟨hfinite, hvalue⟩ := mul_one_spec hspan
      exact eq_of_value_eq hfinite hspan hvalue (hvalue ▸ (value_span_pos hbounded hspan).ne')
    | false =>
      have hparts := parts_span hbounded hspan
      rw [← parts_inj, hparts]
      exact parts_infinity_mul hparts (value_one ▸ one_pos)
  rw [parameter, fraction_self hpos hword, reach]
  exact congrArg _ hwhole

/-- Two roundings in a row lead to the reach, of the length and of the sum. -/
theorem isRounded_reach (hspan : interval.span.isFinite = true) :
    IsRounded interval.reach (value interval.first +
      nearest (value interval.last - value interval.first)) := by
  rw [← (isRounded_span hbounded).value_eq hspan]
  exact isRounded_add (isFinite_ends hbounded).1 hspan

theorem first_le_reach : interval.first ≤ interval.reach := by
  have hle := first_le_parameter hbounded one_pos le_rfl (by norm_num)
  rwa [parameter_self hbounded one_pos (by norm_num)] at hle

/-- The walk ends at the last end of the domain if the two roundings lead there. -/
theorem reach_beq_last_iff : (interval.reach == interval.last) = true ↔
    interval.span.isFinite = true ∧ nearest (value interval.first +
      nearest (value interval.last - value interval.first)) = value interval.last := by
  obtain ⟨hfirst, hlast⟩ := isFinite_ends hbounded
  constructor
  · intro hequal
    have hreach := isFinite_of_le_of_le hfirst hlast (first_le_reach hbounded)
      (le_of_beq hequal)
    obtain ⟨-, hspan⟩ := isFinite_of_add hreach
    rw [beq_iff hreach hlast, (isRounded_reach hbounded hspan).value_eq hreach] at hequal
    exact ⟨hspan, hequal⟩
  · rintro ⟨hspan, hequal⟩
    have hround := isRounded_reach hbounded hspan
    rw [IsRounded, hequal, if_pos (abs_value_le _)] at hround
    exact (beq_iff hround.1 hlast).mpr hround.2

/-- A length that needs no rounding leads to the last end. -/
theorem reach_beq_last_of_grid (hspan : interval.span.isFinite = true)
    (hgrid : Grid (value interval.last - value interval.first)) :
    (interval.reach == interval.last) = true := by
  refine (reach_beq_last_iff hbounded).mpr ⟨hspan, ?_⟩
  rw [nearest_of_grid hgrid, add_sub_cancel]
  exact nearest_of_grid (grid_value _)

/-- The errors of the two roundings add up. -/
theorem abs_reach_sub_last_le (hreach : interval.reach.isFinite = true) :
    let length := value interval.last - value interval.first
    let sum := value interval.first + nearest length
    |value interval.reach - value interval.last| ≤
      2 ^ lastPlace length / 2 + 2 ^ lastPlace sum / 2 := by
  intro length sum
  obtain ⟨-, hspan⟩ := isFinite_of_add hreach
  rw [(isRounded_reach hbounded hspan).value_eq hreach]
  calc |nearest sum - value interval.last|
      = |(nearest length - length) + (nearest sum - sum)| := by
        congr 1
        ring
    _ ≤ |nearest length - length| + |nearest sum - sum| := abs_add_le _ _
    _ ≤ 2 ^ lastPlace length / 2 + 2 ^ lastPlace sum / 2 :=
        add_le_add (abs_nearest_sub_le length) (abs_nearest_sub_le sum)

end Bounded

end Interval

/-! ### Stops -/

namespace Curve

variable (curve : Curve)

theorem sample_eq_some {parameter : Float32} (hlow : curve.domain.first ≤ parameter)
    (hhigh : parameter ≤ curve.domain.last) :
    curve.sample parameter = some (curve.sampleClamped parameter) := by
  have hcontains : curve.domain.contains parameter = true :=
    Bool.and_eq_true_iff.mpr ⟨decide_eq_true hlow, decide_eq_true hhigh⟩
  rw [sample, if_pos hcontains, sampleClamped, curve.domain.clamp_of_mem hlow hhigh]

theorem sample_eq_none {parameter : Float32} (h : curve.domain.last < parameter) :
    curve.sample parameter = none := by
  have hcontains : curve.domain.contains parameter = false :=
    Bool.and_eq_false_iff.mpr (.inr (decide_eq_false (Single.not_le_of_lt h)))
  rw [sample, hcontains, if_neg Bool.false_ne_true]

theorem mem_stops_iff {steps : Nat} {stop : Stop} :
    stop ∈ curve.stops steps ↔ ∃ done < steps, curve.stopAt steps (done + 1) = stop := by
  rw [List.mem_iff_getElem?]
  constructor
  · rintro ⟨done, hstop⟩
    have hdone : done < steps := by
      rw [← curve.length_stops steps]
      exact (List.getElem?_eq_some_iff.mp hstop).1
    rw [curve.getElem?_stops steps hdone, Option.some_inj] at hstop
    exact ⟨done, hdone, hstop⟩
  · rintro ⟨done, hdone, rfl⟩
    exact ⟨done, curve.getElem?_stops steps hdone⟩

theorem getLast?_stops {steps : Nat} (hsteps : 0 < steps) :
    (curve.stops steps).getLast? = some (curve.stopAt steps steps) := by
  rw [List.getLast?_eq_getElem?, curve.length_stops, curve.getElem?_stops steps (by omega),
    Nat.sub_add_cancel hsteps]

section Bounded

variable {curve} {steps : Nat} (hsteps : 0 < steps) (hword : steps < 2 ^ 64)
  (hbounded : curve.domain.isBounded = true)

include hsteps hword hbounded

theorem parameter_mem_of_mem_stops {stop : Stop} (hmem : stop ∈ curve.stops steps) :
    curve.domain.first ≤ stop.parameter ∧ stop.parameter ≤ curve.domain.reach := by
  obtain ⟨done, hdone, rfl⟩ := curve.mem_stops_iff.mp hmem
  have hreach := Interval.parameter_mono hbounded done.succ_pos hdone le_rfl hword
  rw [Interval.parameter_self hbounded hsteps hword] at hreach
  exact ⟨Interval.first_le_parameter hbounded done.succ_pos hdone hword, hreach⟩

/-- A stop has a sample unless it is behind the last end, where its place is that of the end. -/
theorem sample_of_mem_stops {stop : Stop} (hmem : stop ∈ curve.stops steps) :
    (stop.parameter ≤ curve.domain.last → curve.sample stop.parameter = some stop.location) ∧
      (curve.domain.last < stop.parameter →
        curve.sample stop.parameter = none ∧ stop.location = curve.point curve.domain.last) := by
  have hlow := (parameter_mem_of_mem_stops hsteps hword hbounded hmem).1
  obtain ⟨done, -, rfl⟩ := curve.mem_stops_iff.mp hmem
  exact ⟨curve.sample_eq_some hlow, fun hbehind ↦
    ⟨curve.sample_eq_none hbehind, congrArg curve.point (curve.domain.clamp_of_last_lt hbehind)⟩⟩

/-- All stops have samples if the last one has, which is at the reach. -/
theorem forall_sample_iff :
    (∀ stop ∈ curve.stops steps, curve.sample stop.parameter = some stop.location) ↔
      curve.domain.reach ≤ curve.domain.last := by
  constructor
  · intro hall
    have hmem := List.mem_of_getLast? (curve.getLast?_stops hsteps)
    have hreach := Interval.parameter_self hbounded hsteps hword
    obtain ⟨-, hlast⟩ := Interval.isFinite_ends hbounded
    by_contra hnot
    have hbehind := Single.lt_of_not_le (le_iff_level.mp (Interval.first_le_reach hbounded)).2.1
      (isNaN_of_isFinite hlast) hnot
    rw [← hreach] at hbehind
    have hnone := ((sample_of_mem_stops hsteps hword hbounded hmem).2 hbehind).1
    rw [hall _ hmem] at hnone
    cases hnone
  · intro hle stop hmem
    have hreach := (parameter_mem_of_mem_stops hsteps hword hbounded hmem).2
    exact (sample_of_mem_stops hsteps hword hbounded hmem).1 (Single.le_trans hreach hle)

omit hsteps in
theorem pairwise_stops :
    (curve.stops steps).Pairwise (fun stop later ↦ stop.parameter ≤ later.parameter) := by
  have hsteps_lt : (List.range' 1 steps).Pairwise (· < ·) := List.pairwise_lt_range'
  refine List.pairwise_map.mpr (hsteps_lt.imp_of_mem fun hmem hmem' hlt ↦ ?_)
  rw [List.mem_range'_1] at hmem hmem'
  exact Interval.parameter_mono hbounded (by omega) hlt.le (by omega) hword

end Bounded

end Curve

/-- The parameters of a walk in single precision, for any number of steps that a machine word can
count and any domain with finite ends.

The parameters climb from the first end of the domain or behind it to the reach, where the last stop
is. A stop whose parameter is not behind the last end of the domain is where the curve is at this
parameter; a stop behind it has no sample, and its place is that of the last end. Hence all stops
have samples if and only if the reach is not behind the last end.

The reach is the last end if and only if rounding the length of the domain, and rounding the sum of
the first end and that length, leads there. It does if the length of the domain is not rounded. The
reach differs from the last end by at most half a unit in the last place of the length and half a
unit in the last place of the sum. If the length is beyond the largest single, all stops are at
infinity. -/
theorem walk_parameters_climb_to_reach (curve : Curve) (steps : Nat) (hsteps : 0 < steps)
    (hword : steps < 2 ^ 64) (hbounded : curve.domain.isBounded = true) :
    let domain := curve.domain
    let length := value domain.last - value domain.first
    let sum := value domain.first + nearest length
    ∃ stops, (curve.walk steps).result = .ok stops ∧ stops.length = steps ∧
      (∀ stop ∈ stops, domain.first ≤ stop.parameter ∧ stop.parameter ≤ domain.reach) ∧
      stops.Pairwise (fun stop later ↦ stop.parameter ≤ later.parameter) ∧
      stops.getLast?.map Stop.parameter = some domain.reach ∧
      (∀ stop ∈ stops,
        (stop.parameter ≤ domain.last → curve.sample stop.parameter = some stop.location) ∧
        (domain.last < stop.parameter →
          curve.sample stop.parameter = none ∧ stop.location = curve.point domain.last)) ∧
      ((∀ stop ∈ stops, curve.sample stop.parameter = some stop.location) ↔
        domain.reach ≤ domain.last) ∧
      ((domain.reach == domain.last) = true ↔
        domain.span.isFinite = true ∧ nearest sum = value domain.last) ∧
      (domain.span.isFinite = true → Grid length → (domain.reach == domain.last) = true) ∧
      (domain.reach.isFinite = true → |value domain.reach - value domain.last| ≤
        2 ^ lastPlace length / 2 + 2 ^ lastPlace sum / 2) ∧
      (domain.span.isFinite = false →
        ∀ stop ∈ stops, parts stop.parameter = .infinity .positive) := by
  intro domain length sum
  refine ⟨curve.stops steps, ?_, curve.length_stops steps,
    fun stop ↦ Curve.parameter_mem_of_mem_stops hsteps hword hbounded,
    Curve.pairwise_stops hword hbounded, ?_,
    fun stop ↦ Curve.sample_of_mem_stops hsteps hword hbounded,
    Curve.forall_sample_iff hsteps hword hbounded, Interval.reach_beq_last_iff hbounded,
    Interval.reach_beq_last_of_grid hbounded, Interval.abs_reach_sub_last_le hbounded, ?_⟩
  · rw [curve.walk_of_bounded steps hsteps.ne' hbounded]
  · rw [curve.getLast?_stops hsteps]
    exact congrArg some (Interval.parameter_self hbounded hsteps hword)
  · intro hspan stop hmem
    obtain ⟨done, hdone, rfl⟩ := curve.mem_stops_iff.mp hmem
    exact Interval.parts_parameter hbounded done.succ_pos hdone hword hspan

/-- A walk from minus one to two: the length of the domain needs no rounding, so that the last stop
is at its last end and every stop is where the curve is at its parameter. -/
theorem walk_of_exact_length_reaches_end :
    let curve : Curve := ⟨⟨-1, 2, by decide +kernel⟩, fun parameter ↦ ⟨parameter, 0, parameter⟩⟩
    curve.domain.isBounded = true ∧ ∃ stops, (curve.walk 7).result = .ok stops ∧
      (∀ stop ∈ stops, curve.sample stop.parameter = some stop.location) ∧
      stops.getLast?.map Stop.parameter = some 2 := by
  intro curve
  have hbounded : curve.domain.isBounded = true := by decide +kernel
  have hreach : curve.domain.reach = 2 := by decide +kernel
  obtain ⟨stops, hwalk, -, -, -, hlast, -, hsample, -⟩ :=
    walk_parameters_climb_to_reach curve 7 (by norm_num) (by norm_num) hbounded
  refine ⟨hbounded, stops, hwalk, hsample.mpr ?_, hreach ▸ hlast⟩
  rw [hreach]
  decide +kernel

/-- Two walks that leave the domain: one to zero, behind a last end that is a little below zero, and
one to infinity, since the domain is longer than the largest single. -/
theorem walks_leave_domain :
    let near : Curve := ⟨⟨-1, -1e-10, by decide +kernel⟩, fun _ ↦ Vector3.zero⟩
    let far : Curve := ⟨⟨-3e38, 3e38, by decide +kernel⟩, fun _ ↦ Vector3.zero⟩
    (near.domain.isBounded = true ∧ ∃ stop, (near.walk 1).result = .ok [stop] ∧
      stop.parameter = 0 ∧ near.domain.last < stop.parameter ∧
      near.sample stop.parameter = none) ∧
    (far.domain.isBounded = true ∧ ∃ first second, (far.walk 2).result = .ok [first, second] ∧
      first.parameter.isInf = true ∧ far.domain.last < first.parameter ∧
      far.sample first.parameter = none ∧ second.parameter = first.parameter) := by
  intro near far
  have hnear : near.domain.isBounded = true := by decide +kernel
  have hfar : far.domain.isBounded = true := by decide +kernel
  refine ⟨⟨hnear, _, congrArg Logged.result (near.walk_of_bounded 1 (by decide) hnear), ?_⟩,
    ⟨hfar, _, _, congrArg Logged.result (far.walk_of_bounded 2 (by decide) hfar), ?_⟩⟩
  · decide +kernel
  · decide +kernel

end Lindenmayer
