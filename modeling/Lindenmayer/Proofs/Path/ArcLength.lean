import Lindenmayer.Path.Polyline
import Lindenmayer.Proofs.Single.Order
import Lindenmayer.Proofs.Single.Product

/-!
# Polylines by length

The lengths of the way along a polyline are sums of distances in rounded arithmetic, and a search by
halves among them is only of use if they are in order. They are, in a sense that leaves room for
infinities and for what is not a number: `Leads` relates a length to every later one
(`pairwise_lengthsFrom`), because a distance is never below zero and a sum with something that is
not a number stays without one. Whatever is aimed at, the lengths below it come first
(`Polyline.lt_reaching_iff`).

If the whole length is finite, so are all lengths, and they lie between zero and the whole
(`Polyline.isFinite_lengths`). What is aimed at does too, since rounding keeps the order
(`Polyline.target_spec`), so that the search ends at a point of the polyline
(`Polyline.reaching_target_lt`). The segment that ends there has a positive length even where the
lengths of its ends are next to each other (`span_pos`), and the part of it that is covered is
between zero and one (`part_mem`).

`Polyline.checkedPoint` is the point of a parameter with every look-up guarded. That no guard is
ever needed, for any points and any parameter, is the first part of `polyline_divides_by_length`;
the rest is the account of the search.
-/

set_option autoImplicit false

namespace Lindenmayer

open Single

/-! ### Lengths in order -/

/-- A length is at most a later one, unless the later one is not a number. -/
def Leads (first second : Float32) : Prop := second.isNaN = true ∨ first ≤ second

theorem Leads.refl (number : Float32) : Leads number number := by
  cases hnumber : number.isNaN with
  | true => exact .inl hnumber
  | false => exact .inr (le_iff_level.mpr ⟨hnumber, hnumber, le_rfl⟩)

theorem Leads.trans {first second third : Float32} (h : Leads first second)
    (h' : Leads second third) : Leads first third := by
  rcases h' with hthird | hle'
  · exact .inl hthird
  · rcases h with hnone | hle
    · exact absurd hnone (Bool.eq_false_iff.mp (le_iff_level.mp hle').1)
    · exact .inr (Single.le_trans hle hle')

/-- What is above a later length is above every earlier one. -/
theorem Leads.lt {first second target : Float32} (h : Leads first second) (hlt : second < target) :
    first < target := by
  obtain ⟨hsecond, htarget, hlevel'⟩ := lt_iff_level.mp hlt
  rcases h with hnone | hle
  · exact absurd hnone (Bool.eq_false_iff.mp hsecond)
  · obtain ⟨hfirst, -, hlevel⟩ := le_iff_level.mp hle
    exact lt_iff_level.mpr ⟨hfirst, htarget, hlevel.trans_lt hlevel'⟩

theorem Leads.le {first second : Float32} (h : Leads first second)
    (hsecond : second.isNaN = false) : first ≤ second :=
  h.resolve_left (Bool.eq_false_iff.mp hsecond)

/-- A distance is not below zero. -/
theorem level_distance_nonneg (point next : Point) : 0 ≤ level (point.distance next) :=
  level_sqrt_nonneg _

/-- The way to the next point is not shorter. -/
theorem leads_add_distance (covered : Float32) (point next : Point) :
    Leads covered (covered + point.distance next) := by
  cases hsum : (covered + point.distance next).isNaN with
  | true => exact .inl hsum
  | false =>
    exact .inr (le_iff_level.mpr ⟨(isNaN_of_add hsum).1, hsum,
      level_le_level_add hsum (level_distance_nonneg point next)⟩)

theorem exists_lengthsFrom_cons (covered : Float32) (point : Point) (points : List Point) :
    ∃ rest, lengthsFrom covered (point :: points) = covered :: rest := by
  cases points with
  | nil => exact ⟨_, rfl⟩
  | cons next rest => exact ⟨_, rfl⟩

/-- The way to the next point is longer by the distance to it. -/
theorem getElem?_lengthsFrom_succ {covered length : Float32} {points : List Point} {index : Nat}
    {point next : Point} (hlength : (lengthsFrom covered points)[index]? = some length)
    (hpoint : points[index]? = some point) (hnext : points[index + 1]? = some next) :
    (lengthsFrom covered points)[index + 1]? = some (length + point.distance next) := by
  fun_induction lengthsFrom covered points generalizing index with
  | case1 => cases hpoint
  | case2 covered last => cases hnext
  | case3 covered first second rest ih =>
    cases index with
    | zero =>
      obtain ⟨later, hlater⟩ :=
        exists_lengthsFrom_cons (covered + first.distance second) second rest
      obtain rfl : covered = length := Option.some_inj.mp hlength
      obtain rfl : first = point := Option.some_inj.mp hpoint
      obtain rfl : second = next := Option.some_inj.mp hnext
      rw [hlater]
      rfl
    | succ index => exact ih hlength hpoint hnext

/-- Every length leads to all later ones, because it leads to the next. -/
theorem pairwise_lengthsFrom (covered : Float32) (points : List Point) :
    (lengthsFrom covered points).Pairwise Leads := by
  fun_induction lengthsFrom covered points with
  | case1 => exact .nil
  | case2 covered point => exact List.pairwise_singleton _ _
  | case3 covered point next rest ih =>
    obtain ⟨later, hlater⟩ := exists_lengthsFrom_cons (covered + point.distance next) next rest
    have hstep := leads_add_distance covered point next
    rw [hlater] at ih ⊢
    refine List.pairwise_cons.mpr ⟨fun length hlength ↦ ?_, ih⟩
    rcases List.mem_cons.mp hlength with rfl | hmem
    · exact hstep
    · exact hstep.trans ((List.pairwise_cons.mp ih).1 length hmem)

namespace Polyline

variable (polyline : Polyline)

theorem getElem?_lengths_zero : polyline.lengths[0]? = some 0 := by
  have hsize := polyline.two_le_size
  obtain ⟨point, rest, hpoints⟩ : ∃ point rest, polyline.points.toList = point :: rest :=
    List.exists_cons_of_length_pos (by rw [Array.length_toList]; omega)
  obtain ⟨later, hlater⟩ := exists_lengthsFrom_cons 0 point rest
  rw [polyline.lengths_eq, hpoints, hlater]
  rfl

/-- The way to the next point of a polyline is longer by the distance to it. -/
theorem getElem?_lengths_succ {index : Nat} {covered : Float32} {point next : Point}
    (hcovered : polyline.lengths[index]? = some covered)
    (hpoint : polyline.points[index]? = some point)
    (hnext : polyline.points[index + 1]? = some next) :
    polyline.lengths[index + 1]? = some (covered + point.distance next) := by
  rw [polyline.lengths_eq, List.getElem?_toArray] at hcovered ⊢
  rw [← Array.getElem?_toList] at hpoint hnext
  exact getElem?_lengthsFrom_succ hcovered hpoint hnext

theorem getElem?_lengths_last :
    polyline.lengths[polyline.points.size - 1]? = some polyline.length :=
  Array.getElem?_eq_getElem (polyline.size_lengths ▸ polyline.pred_size_lt)

theorem exists_getElem?_lengths {index : Nat} (h : index < polyline.points.size) :
    ∃ covered, polyline.lengths[index]? = some covered :=
  ⟨_, Array.getElem?_eq_getElem (polyline.size_lengths ▸ h)⟩

theorem lt_size_of_getElem?_lengths {index : Nat} {covered : Float32}
    (h : polyline.lengths[index]? = some covered) : index < polyline.points.size := by
  rw [← polyline.size_lengths]
  exact (Array.getElem?_eq_some_iff.mp h).1

/-- Every length of a polyline leads to all later ones. -/
theorem leads_of_le {index later : Nat} {covered reached : Float32} (hle : index ≤ later)
    (hcovered : polyline.lengths[index]? = some covered)
    (hreached : polyline.lengths[later]? = some reached) : Leads covered reached := by
  rcases hle.eq_or_lt with rfl | hlt
  · obtain rfl : covered = reached := Option.some_inj.mp (hcovered.symm.trans hreached)
    exact Leads.refl covered
  · rw [polyline.lengths_eq, List.getElem?_toArray, List.getElem?_eq_some_iff] at hcovered hreached
    obtain ⟨hindex, rfl⟩ := hcovered
    obtain ⟨hlater, rfl⟩ := hreached
    exact List.pairwise_iff_getElem.mp (pairwise_lengthsFrom 0 _) _ _ hindex hlater hlt

/-! ### The search -/

theorem reaching_le (target : Float32) : polyline.reaching target ≤ polyline.points.size :=
  partitionPoint_le _ _

/-- The search divides the lengths into those below the target and the others, because all lengths
before one that is below the target are below it too. -/
theorem lt_reaching_iff (target : Float32) {index : Nat} {covered : Float32}
    (h : polyline.lengths[index]? = some covered) :
    index < polyline.reaching target ↔ covered < target := by
  rw [reaching, lt_partitionPoint_iff _ (polyline.lt_size_of_getElem?_lengths h), h,
    Option.any_some, decide_eq_true_iff]
  intro first second hle hsecond htest
  obtain ⟨covered', hcovered'⟩ := polyline.exists_getElem?_lengths (hle.trans_lt hsecond)
  obtain ⟨reached, hreached⟩ := polyline.exists_getElem?_lengths hsecond
  rw [hreached, Option.any_some, decide_eq_true_iff] at htest
  rw [hcovered', Option.any_some, decide_eq_true_iff]
  exact (polyline.leads_of_le hle hcovered' hreached).lt htest

/-! ### Checked look-ups -/

/-- The point of a parameter, when every look-up may fail. -/
def checkedPoint (parameter : Float32) : Option Point := do
  let first ← polyline.points[0]?
  let length := polyline.lengths.back?.getD 0
  if length ≤ epsilon then some first
  else
    let target := Interval.unit.clamp parameter * length
    let index := polyline.reaching target
    if index = 0 then some first
    else if polyline.points.size ≤ index then polyline.points[polyline.points.size - 1]?
    else
      let covered ← polyline.lengths[index - 1]?
      let reached ← polyline.lengths[index]?
      let before ← polyline.points[index - 1]?
      let after ← polyline.points[index]?
      let span := reached - covered
      some (before.between after (if 0 < span then (target - covered) / span else 0))

/-- No look-up ever fails. -/
theorem checkedPoint_eq (parameter : Float32) :
    polyline.checkedPoint parameter = some (polyline.point parameter) := by
  have hsize := polyline.two_le_size
  have hlengths := polyline.size_lengths
  have hfirst : polyline.points[0]? = some polyline.first := Array.getElem?_eq_getElem (by omega)
  have hlast : polyline.points[polyline.points.size - 1]? = some polyline.last :=
    Array.getElem?_eq_getElem polyline.pred_size_lt
  have hlength : polyline.lengths.back?.getD 0 = polyline.length := by
    rw [Array.back?_eq_getElem?, polyline.size_lengths, polyline.getElem?_lengths_last,
      Option.getD_some]
  rw [checkedPoint, hfirst, hlength, Option.bind_eq_bind, Option.bind_some, point]
  dsimp only
  generalize polyline.reaching _ = index
  split_ifs with hshort hzero hbeyond hrange hrange
  · rfl
  · rfl
  · omega
  · exact hlast
  · rw [Array.getElem?_eq_getElem (by omega), Array.getElem?_eq_getElem (by omega),
      Array.getElem?_eq_getElem (by omega), Array.getElem?_eq_getElem hrange]
    rfl
  · omega

end Polyline

/-! ### Parameters -/

namespace Interval

theorem clamp_of_lt_first (interval : Interval) {parameter : Float32}
    (h : parameter < interval.first) : interval.clamp parameter = interval.first := by
  obtain ⟨-, -, hlevels⟩ := lt_iff_level.mp interval.first_lt_last
  have habove : ¬ interval.last < interval.first := fun hlt ↦
    hlevels.not_gt (lt_iff_level.mp hlt).2.2
  rw [clamp, if_pos h, if_neg habove]

theorem clamp_of_last_lt (interval : Interval) {parameter : Float32}
    (h : interval.last < parameter) : interval.clamp parameter = interval.last := by
  obtain ⟨-, -, hlevels⟩ := lt_iff_level.mp interval.first_lt_last
  have hbelow : ¬ parameter < interval.first := fun hlt ↦
    (hlevels.trans (lt_iff_level.mp h).2.2).not_gt (lt_iff_level.mp hlt).2.2
  rw [clamp, if_neg hbelow, if_pos h]

theorem clamp_of_mem (interval : Interval) {parameter : Float32}
    (hlow : interval.first ≤ parameter) (hhigh : parameter ≤ interval.last) :
    interval.clamp parameter = parameter := by
  have hbelow : ¬ parameter < interval.first := fun hlt ↦ Single.not_le_of_lt hlt hlow
  have habove : ¬ interval.last < parameter := fun hlt ↦ Single.not_le_of_lt hlt hhigh
  rw [clamp, if_neg hbelow, if_neg habove]

/-- Clamping raises a level to the first end of the interval and lowers it to the last. -/
theorem level_clamp (interval : Interval) {parameter : Float32} (h : parameter.isNaN = false) :
    (interval.clamp parameter).isNaN = false ∧
      level (interval.clamp parameter) =
        min (max (level parameter) (level interval.first)) (level interval.last) := by
  obtain ⟨hfirst, hlast, hlevels⟩ := lt_iff_level.mp interval.first_lt_last
  by_cases hbelow : parameter < interval.first
  · obtain ⟨-, -, hlevel⟩ := lt_iff_level.mp hbelow
    rw [interval.clamp_of_lt_first hbelow, max_eq_right hlevel.le, min_eq_left hlevels.le]
    exact ⟨hfirst, rfl⟩
  have hlow := Single.le_of_not_lt h hfirst hbelow
  rw [max_eq_left (le_iff_level.mp hlow).2.2]
  by_cases habove : interval.last < parameter
  · obtain ⟨-, -, hlevel⟩ := lt_iff_level.mp habove
    rw [interval.clamp_of_last_lt habove, min_eq_right hlevel.le]
    exact ⟨hlast, rfl⟩
  · have hhigh := Single.le_of_not_lt hlast h habove
    rw [interval.clamp_of_mem hlow hhigh, min_eq_left (le_iff_level.mp hhigh).2.2]
    exact ⟨h, rfl⟩

theorem first_le_clamp (interval : Interval) {parameter : Float32} (h : parameter.isNaN = false) :
    interval.first ≤ interval.clamp parameter := by
  obtain ⟨hfirst, -, hlevels⟩ := lt_iff_level.mp interval.first_lt_last
  obtain ⟨hclamp, hlevel⟩ := interval.level_clamp h
  exact le_iff_level.mpr ⟨hfirst, hclamp, hlevel ▸ le_min (le_max_right _ _) hlevels.le⟩

theorem clamp_le_last (interval : Interval) {parameter : Float32} (h : parameter.isNaN = false) :
    interval.clamp parameter ≤ interval.last := by
  obtain ⟨-, hlast, -⟩ := lt_iff_level.mp interval.first_lt_last
  obtain ⟨hclamp, hlevel⟩ := interval.level_clamp h
  exact le_iff_level.mpr ⟨hclamp, hlast, hlevel ▸ min_le_right _ _⟩

/-- Clamping keeps the order. -/
theorem clamp_mono (interval : Interval) {first second : Float32} (h : first ≤ second) :
    interval.clamp first ≤ interval.clamp second := by
  obtain ⟨hfirst, hsecond, hle⟩ := le_iff_level.mp h
  obtain ⟨hclamp, hlevel⟩ := interval.level_clamp hfirst
  obtain ⟨hclamp', hlevel'⟩ := interval.level_clamp hsecond
  rw [le_iff_level, hlevel, hlevel']
  exact ⟨hclamp, hclamp', min_le_min_right _ (max_le_max_right _ hle)⟩

/-- A parameter that is clamped to the unit interval has a value there. -/
theorem value_clamp_unit {parameter : Float32} (h : parameter.isNaN = false) :
    (unit.clamp parameter).isFinite = true ∧
      0 ≤ value (unit.clamp parameter) ∧ value (unit.clamp parameter) ≤ 1 := by
  have hlow := unit.first_le_clamp h
  have hhigh := unit.clamp_le_last h
  have hfinite := isFinite_of_le_of_le rfl rfl hlow hhigh
  refine ⟨hfinite, ?_, ?_⟩
  · rwa [le_iff rfl hfinite] at hlow
  · rwa [le_iff hfinite rfl, unit, value_one] at hhigh

end Interval

/-! ### Targets -/

namespace Polyline

variable (polyline : Polyline)

/-- The length of the way that a parameter aims at. -/
def target (parameter : Float32) : Float32 := Interval.unit.clamp parameter * polyline.length

section Finite

variable {polyline : Polyline} (hfinite : polyline.length.isFinite = true)

include hfinite

/-- If the whole length is finite, all lengths are, and they lie between zero and the whole. -/
theorem isFinite_lengths {index : Nat} {covered : Float32}
    (h : polyline.lengths[index]? = some covered) :
    covered.isFinite = true ∧ 0 ≤ value covered ∧ value covered ≤ value polyline.length := by
  have hindex := polyline.lt_size_of_getElem?_lengths h
  have hhigh : covered ≤ polyline.length :=
    (polyline.leads_of_le (by omega) h polyline.getElem?_lengths_last).le
      (isNaN_of_isFinite hfinite)
  have hlow : 0 ≤ covered :=
    (polyline.leads_of_le (Nat.zero_le index) polyline.getElem?_lengths_zero h).le
      (le_iff_level.mp hhigh).1
  have hcovered := isFinite_of_le_of_le rfl hfinite hlow hhigh
  exact ⟨hcovered, (le_iff rfl hcovered).mp hlow, (le_iff hcovered hfinite).mp hhigh⟩

theorem value_length_nonneg : 0 ≤ value polyline.length :=
  (isFinite_lengths hfinite polyline.getElem?_lengths_last).2.1

/-- What is aimed at lies between zero and the whole length. -/
theorem target_spec {parameter : Float32} (h : parameter.isNaN = false) :
    (polyline.target parameter).isFinite = true ∧ 0 ≤ value (polyline.target parameter) ∧
      value (polyline.target parameter) ≤ value polyline.length := by
  obtain ⟨hclamp, hlow, hhigh⟩ := Interval.value_clamp_unit h
  have hlength := value_length_nonneg hfinite
  have hproduct : value 0 ≤ value (Interval.unit.clamp parameter) * value polyline.length :=
    mul_nonneg hlow hlength
  exact (isRounded_mul hclamp hfinite).of_between hproduct (mul_le_of_le_one_left hlength hhigh)

/-- A later parameter does not aim at less. -/
theorem target_mono {first second : Float32} (h : first ≤ second) :
    value (polyline.target first) ≤ value (polyline.target second) := by
  obtain ⟨hfirst, hsecond, -⟩ := le_iff_level.mp h
  obtain ⟨hclamp, -, -⟩ := Interval.value_clamp_unit hfirst
  obtain ⟨hclamp', -, -⟩ := Interval.value_clamp_unit hsecond
  have hle := (le_iff hclamp hclamp').mp (Interval.unit.clamp_mono h)
  rw [← level_le_iff (target_spec hfinite hfirst).1 (target_spec hfinite hsecond).1]
  exact (isRounded_mul hclamp hfinite).level_mono (isRounded_mul hclamp' hfinite)
    (mul_le_mul_of_nonneg_right hle (value_length_nonneg hfinite))

/-- The search for a target finds a point of the polyline. -/
theorem reaching_target_lt {parameter : Float32} (h : parameter.isNaN = false) :
    polyline.reaching (polyline.target parameter) < polyline.points.size := by
  obtain ⟨htarget, -, hle⟩ := target_spec hfinite h
  have hlast := polyline.lt_reaching_iff (polyline.target parameter) polyline.getElem?_lengths_last
  rw [lt_iff hfinite htarget] at hlast
  have hsize := polyline.pred_size_lt
  have := mt hlast.mp (not_lt.mpr hle)
  omega

/-- A later parameter is not found on an earlier segment: what is not below its target is not below
the smaller one. -/
theorem reaching_target_mono {first second : Float32} (h : first ≤ second) :
    polyline.reaching (polyline.target first) ≤ polyline.reaching (polyline.target second) := by
  obtain ⟨hfirst, hsecond, -⟩ := le_iff_level.mp h
  by_contra hlt
  obtain ⟨covered, hcovered⟩ :=
    polyline.exists_getElem?_lengths (reaching_target_lt hfinite hsecond)
  have hless := (polyline.lt_reaching_iff _ hcovered).mp (not_le.mp hlt)
  have hnot := mt (polyline.lt_reaching_iff _ hcovered).mpr (lt_irrefl _)
  obtain ⟨hcovered', -, -⟩ := isFinite_lengths hfinite hcovered
  rw [lt_iff hcovered' (target_spec hfinite hfirst).1] at hless
  rw [lt_iff hcovered' (target_spec hfinite hsecond).1, not_lt] at hnot
  exact hless.not_ge (hnot.trans' (target_mono hfinite h))

end Finite

end Polyline

/-! ### Segments -/

/-- A segment has a positive length, however near the lengths of its ends are to each other. -/
theorem span_pos {covered reached : Float32} (hcovered : covered.isFinite = true)
    (hreached : reached.isFinite = true) (hnonneg : 0 ≤ value covered)
    (hlt : value covered < value reached) :
    (reached - covered).isFinite = true ∧ 0 < value (reached - covered) := by
  have hround := isRounded_sub hreached hcovered
  have hsmall : |value reached - value covered| < (2 ^ 25 - 1) * 2 ^ 103 := by
    rw [abs_of_pos (sub_pos.mpr hlt)]
    calc value reached - value covered ≤ value reached := sub_le_self _ hnonneg
      _ ≤ largest := (le_abs_self _).trans (abs_value_le reached)
      _ < (2 ^ 25 - 1) * 2 ^ 103 := by norm_num [largest]
  obtain ⟨hfinite, hvalue⟩ := hround.of_abs_lt hsmall
  rw [hvalue]
  exact ⟨hfinite, (grid_value reached).nearest_sub_pos (grid_value covered) hlt⟩

/-- The part of a segment that is covered is between zero and one. Rounding the two differences may
make them equal but does not change their order. -/
theorem part_mem {covered target reached : Float32} (hcovered : covered.isFinite = true)
    (htarget : target.isFinite = true) (hreached : reached.isFinite = true)
    (hnonneg : 0 ≤ value covered) (hlt : value covered < value target)
    (hle : value target ≤ value reached) :
    0 ≤ (target - covered) / (reached - covered) ∧
      (target - covered) / (reached - covered) ≤ 1 := by
  obtain ⟨hspan, hspan_pos⟩ := span_pos hcovered hreached hnonneg (hlt.trans_le hle)
  obtain ⟨hrest, hrest_pos⟩ := span_pos hcovered htarget hnonneg hlt
  have hrest_le : value (target - covered) ≤ value (reached - covered) := by
    rw [← level_le_iff hrest hspan]
    exact (isRounded_sub htarget hcovered).level_mono (isRounded_sub hreached hcovered)
      (sub_le_sub_right hle _)
  have hlow : value 0 ≤ value (target - covered) / value (reached - covered) :=
    div_nonneg hrest_pos.le hspan_pos.le
  have hhigh : value (target - covered) / value (reached - covered) ≤ value 1 := by
    rw [value_one]
    exact (div_le_one hspan_pos).mpr hrest_le
  obtain ⟨hpart, hlow, hhigh⟩ :=
    (isRounded_div hrest hspan hspan_pos.ne').of_between hlow hhigh
  exact ⟨(le_iff rfl hpart).mpr hlow, (le_iff hpart rfl).mpr hhigh⟩

namespace Polyline

variable {polyline : Polyline}

theorem point_of_reaching_eq_zero {parameter : Float32}
    (h : polyline.reaching (polyline.target parameter) = 0) :
    polyline.point parameter = polyline.first := by
  rw [point]
  split_ifs
  · rfl
  · exact if_pos h

theorem point_of_reaching_pos (hlong : epsilon < polyline.length) {parameter : Float32}
    (hpos : 0 < polyline.reaching (polyline.target parameter))
    (hindex : polyline.reaching (polyline.target parameter) < polyline.points.size) :
    polyline.point parameter =
      polyline.onSegment (polyline.target parameter)
        (polyline.reaching (polyline.target parameter)) hindex := by
  rw [point, if_neg (Single.not_le_of_lt hlong)]
  exact (if_neg hpos.ne').trans (dif_pos hindex)

/-- The segment of a parameter whose search does not end at the first point. -/
theorem segment_spec (hfinite : polyline.length.isFinite = true)
    (hlong : epsilon < polyline.length) {parameter : Float32} (h : parameter.isNaN = false)
    (hpos : 0 < polyline.reaching (polyline.target parameter)) :
    let target := polyline.target parameter
    let index := polyline.reaching target
    ∃ covered reached before after,
      polyline.lengths[index - 1]? = some covered ∧ polyline.lengths[index]? = some reached ∧
      polyline.points[index - 1]? = some before ∧ polyline.points[index]? = some after ∧
      covered < target ∧ target ≤ reached ∧ 0 < reached - covered ∧
      0 ≤ (target - covered) / (reached - covered) ∧
      (target - covered) / (reached - covered) ≤ 1 ∧
      polyline.point parameter =
        before.between after ((target - covered) / (reached - covered)) := by
  intro target index
  have hindex : index < polyline.points.size := reaching_target_lt hfinite h
  have hbefore : index - 1 < polyline.points.size := (Nat.sub_le index 1).trans_lt hindex
  obtain ⟨covered, hcovered⟩ := polyline.exists_getElem?_lengths hbefore
  obtain ⟨reached, hreached⟩ := polyline.exists_getElem?_lengths hindex
  obtain ⟨hcovered_finite, hnonneg, -⟩ := isFinite_lengths hfinite hcovered
  obtain ⟨hreached_finite, -, -⟩ := isFinite_lengths hfinite hreached
  obtain ⟨htarget, -, -⟩ := target_spec hfinite h
  have hlt : covered < target :=
    (polyline.lt_reaching_iff target hcovered).mp (Nat.sub_lt hpos Nat.one_pos)
  have hle : target ≤ reached := by
    have hnot : ¬ reached < target := mt (polyline.lt_reaching_iff target hreached).mpr
      (lt_irrefl index)
    rw [lt_iff hreached_finite htarget, not_lt] at hnot
    exact (le_iff htarget hreached_finite).mpr hnot
  have hlt_value := (lt_iff hcovered_finite htarget).mp hlt
  have hle_value := (le_iff htarget hreached_finite).mp hle
  have hspan : 0 < reached - covered := by
    obtain ⟨hfinite, hpos⟩ :=
      span_pos hcovered_finite hreached_finite hnonneg (hlt_value.trans_le hle_value)
    exact (lt_iff rfl hfinite).mpr hpos
  obtain ⟨hpart, hpart'⟩ :=
    part_mem hcovered_finite htarget hreached_finite hnonneg hlt_value hle_value
  refine ⟨covered, reached, polyline.points[index - 1], polyline.points[index], hcovered, hreached,
    Array.getElem?_eq_getElem hbefore, Array.getElem?_eq_getElem hindex, hlt, hle, hspan, hpart,
    hpart', ?_⟩
  obtain ⟨_, rfl⟩ := Array.getElem?_eq_some_iff.mp hcovered
  obtain ⟨_, rfl⟩ := Array.getElem?_eq_some_iff.mp hreached
  rw [point_of_reaching_pos hlong hpos hindex, onSegment, if_pos hspan]

end Polyline

/-- The account of a polyline that is divided by its length, for any points and any parameters,
infinite and undefined ones included.

No look-up of the point of a parameter is ever out of range. There is a length for every point, the
first of them zero and every other one the length before with the distance between the two points,
and for every target the search finds the number of lengths that are below it, which come before all
others.

If the whole length is finite and not next to nothing, the search for a parameter that is a number
ends at a point of the polyline, and a later parameter ends at no earlier one. If that is the first
point, it is the point of the parameter. If not, the length of the way to it is the first that is
not below the target, the segment that ends there has a positive length, and the point of the
parameter lies on that segment, at a part between zero and one: each coordinate is the first end's,
times what is left of one, and the second end's, times that part. -/
theorem polyline_divides_by_length (points : Array Point) (two_le_size : 2 ≤ points.size) :
    ∃ polyline, Polyline.ofPoints points = .ok polyline ∧ polyline.points = points ∧
      (∀ parameter, polyline.checkedPoint parameter = some (polyline.point parameter)) ∧
      polyline.lengths.size = points.size ∧ polyline.lengths[0]? = some 0 ∧
      (∀ index covered point next, polyline.lengths[index]? = some covered →
        points[index]? = some point → points[index + 1]? = some next →
          polyline.lengths[index + 1]? = some (covered + point.distance next)) ∧
      (∀ target, polyline.reaching target ≤ points.size ∧
        ∀ index covered, polyline.lengths[index]? = some covered →
          (covered < target ↔ index < polyline.reaching target)) ∧
      (polyline.length.isFinite = true → epsilon < polyline.length →
        (∀ parameter, parameter.isNaN = false →
          let target := polyline.target parameter
          let index := polyline.reaching target
          index < points.size ∧
          (index = 0 → points[0]? = some (polyline.point parameter)) ∧
          (0 < index → ∃ covered reached before after,
            polyline.lengths[index - 1]? = some covered ∧ polyline.lengths[index]? = some reached ∧
            points[index - 1]? = some before ∧ points[index]? = some after ∧
            covered < target ∧ target ≤ reached ∧ 0 < reached - covered ∧
            let part := (target - covered) / (reached - covered)
            0 ≤ part ∧ part ≤ 1 ∧
            polyline.point parameter =
              ⟨before.x * (1 - part) + after.x * part, before.y * (1 - part) + after.y * part,
                before.z * (1 - part) + after.z * part⟩)) ∧
        ∀ parameter later, parameter ≤ later →
          polyline.reaching (polyline.target parameter) ≤
            polyline.reaching (polyline.target later)) := by
  obtain ⟨polyline, hpolyline, rfl⟩ : ∃ polyline, Polyline.ofPoints points = .ok polyline ∧
      polyline.points = points := by
    rw [Polyline.ofPoints, dif_pos two_le_size]
    exact ⟨_, rfl, rfl⟩
  refine ⟨polyline, hpolyline, rfl, polyline.checkedPoint_eq, polyline.size_lengths,
    polyline.getElem?_lengths_zero, fun index covered point next ↦ polyline.getElem?_lengths_succ,
    fun target ↦ ⟨polyline.reaching_le target,
      fun index covered h ↦ (polyline.lt_reaching_iff target h).symm⟩,
    fun hfinite hlong ↦ ⟨?_, fun parameter later hle ↦ Polyline.reaching_target_mono hfinite hle⟩⟩
  intro parameter hparameter target index
  refine ⟨Polyline.reaching_target_lt hfinite hparameter, fun hzero ↦ ?_,
    Polyline.segment_spec hfinite hlong hparameter⟩
  rw [Polyline.point_of_reaching_eq_zero hzero]
  exact Array.getElem?_eq_getElem (Nat.zero_lt_two.trans_le two_le_size)

/-- A way of five, then none and then twelve: half of it is on the last of the three segments,
behind the point that is there twice. -/
theorem halfway_is_behind_double_point :
    let points : Array Point := #[⟨0, 0, 0⟩, ⟨3, 4, 0⟩, ⟨3, 4, 0⟩, ⟨3, 4, 12⟩]
    2 ≤ points.size ∧ ∃ polyline, Polyline.ofPoints points = .ok polyline ∧
      polyline.lengths = #[0, 5, 5, 17] ∧ polyline.length.isFinite = true ∧
      epsilon < polyline.length ∧ polyline.target 0.5 = 8.5 ∧ polyline.reaching 8.5 = 3 ∧
      polyline.point 0.5 = ⟨3, 4, 3.5⟩ := by
  intro points
  have two_le_size : 2 ≤ points.size := by decide
  obtain ⟨polyline, hpolyline, hpoints, -, -, -, -, hsearch, hpoint⟩ :=
    polyline_divides_by_length points two_le_size
  have hlengths : polyline.lengths = #[0, 5, 5, 17] := by
    rw [polyline.lengths_eq, hpoints]
    decide +kernel
  have hlength : polyline.length = 17 := by
    have hlast := polyline.getElem?_lengths_last
    rw [hlengths, hpoints] at hlast
    exact (Option.some_inj.mp hlast).symm
  have htarget : polyline.target 0.5 = 8.5 := by
    rw [Polyline.target, hlength]
    decide +kernel
  have hreaching : polyline.reaching 8.5 = 3 := by
    have hbelow := ((hsearch 8.5).2 2 5 (by rw [hlengths]; rfl)).mp (by decide +kernel)
    have habove := mt ((hsearch 8.5).2 3 17 (by rw [hlengths]; rfl)).mpr (by decide +kernel)
    omega
  have hfinite : polyline.length.isFinite = true := by rw [hlength]; rfl
  have hlong : epsilon < polyline.length := by rw [hlength]; decide +kernel
  obtain ⟨-, -, hsegment⟩ := (hpoint hfinite hlong).1 0.5 (by decide +kernel)
  rw [htarget, hreaching] at hsegment
  obtain ⟨covered, reached, before, after, hcovered, hreached, hbefore, hafter, -, -, -, -, -,
    hlies⟩ := hsegment (by decide)
  rw [hlengths] at hcovered hreached
  obtain rfl : 5 = covered := Option.some_inj.mp hcovered
  obtain rfl : 17 = reached := Option.some_inj.mp hreached
  obtain rfl : ⟨3, 4, 0⟩ = before := Option.some_inj.mp hbefore
  obtain rfl : ⟨3, 4, 12⟩ = after := Option.some_inj.mp hafter
  refine ⟨two_le_size, polyline, hpolyline, hlengths, hfinite, hlong, htarget, hreaching, ?_⟩
  rw [hlies]
  decide +kernel

end Lindenmayer
