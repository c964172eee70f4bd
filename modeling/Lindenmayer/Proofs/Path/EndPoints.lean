import Lindenmayer.Proofs.Path.ArcLength
import Lindenmayer.Proofs.Single.Bounds
import Lindenmayer.Proofs.Space.Normalizing

/-!
# The end points of a polyline

At zero a polyline is at its first point (`Polyline.point_zero`). At one it is where the recorded
length of the way first becomes that of the whole way (`Polyline.point_one`): the search stops at a
segment that is covered as a whole, its length is divided by itself, and the first end of the
segment is multiplied by an exact zero.

In single precision that need not be the last point. A way that is next to nothing is not travelled
at all, and a short move after a long way is lost when it is added. `Polyline.CompleteAt` singles
out the point up to which the recorded length is first that of the whole way. The polyline ends
there (`polyline_ends_where_complete`), and therefore at its last point exactly if that point is
where the last one is. It is if every move makes the recorded length larger
(`Polyline.beq_last_of_lengthens`), and it can be where lost moves lead back.
-/

set_option autoImplicit false

namespace Lindenmayer

open Single

namespace Vector3

theorem beq_refl_of_isFinite {point : Point} (h : point.IsFinite) : (point == point) = true :=
  (beq_iff h h).mpr ⟨rfl, rfl, rfl⟩

/-- Equal finite points are equal to the same finite points. -/
theorem beq_congr_of_isFinite {first second third : Point} (hfirst : first.IsFinite)
    (hsecond : second.IsFinite) (hthird : third.IsFinite) (h : (first == second) = true) :
    (first == third) = true ↔ (second == third) = true := by
  obtain ⟨hx, hy, hz⟩ := (beq_iff hfirst hsecond).mp h
  rw [beq_iff hfirst hthird, beq_iff hsecond hthird, hx, hy, hz]

/-- All of the way between two numbers leads to the second. -/
theorem between_one_spec {first second : Float32} (hfirst : first.isFinite = true)
    (hsecond : second.isFinite = true) : (first * (1 - 1) + second * 1).isFinite = true ∧
      value (first * (1 - 1) + second * 1) = value second := by
  have hnone : (1 - 1 : Float32) = 0 := by decide +kernel
  obtain ⟨hzero, hzero_value⟩ := mul_zero_spec hfirst
  obtain ⟨hwhole, hwhole_value⟩ := mul_one_spec hsecond
  have hround := isRounded_add hzero hwhole
  rw [hzero_value, hwhole_value, zero_add] at hround
  rw [hnone]
  exact hround.of_grid (grid_value second) (abs_value_le second)

/-- All of the way between two points leads to the second. -/
theorem between_one {first second : Point} (hfirst : first.IsFinite) (hsecond : second.IsFinite) :
    (first.between second 1).IsFinite ∧ (first.between second 1 == second) = true := by
  obtain ⟨hfirst_x, hfirst_y, hfirst_z⟩ := forall_mem_coordinates.mp hfirst
  obtain ⟨hsecond_x, hsecond_y, hsecond_z⟩ := forall_mem_coordinates.mp hsecond
  obtain ⟨hx, hvalue_x⟩ := between_one_spec hfirst_x hsecond_x
  obtain ⟨hy, hvalue_y⟩ := between_one_spec hfirst_y hsecond_y
  obtain ⟨hz, hvalue_z⟩ := between_one_spec hfirst_z hsecond_z
  have hfinite : (first.between second 1).IsFinite := forall_mem_coordinates.mpr ⟨hx, hy, hz⟩
  exact ⟨hfinite, (beq_iff hfinite hsecond).mpr ⟨hvalue_x, hvalue_y, hvalue_z⟩⟩

end Vector3

namespace Polyline

variable {polyline : Polyline}

/-- The recorded length of the way is that of the whole way at the point with index `index`, and
less at all points before. -/
structure CompleteAt (polyline : Polyline) (index : Nat) : Prop where
  lengths_eq : polyline.lengths[index]? = some polyline.length
  lt_length : ∀ earlier covered, earlier < index → polyline.lengths[earlier]? = some covered →
    covered < polyline.length

/-- Every segment between different points makes the recorded length of the way larger. -/
def Lengthens (polyline : Polyline) : Prop :=
  ∀ (index : Nat) (covered reached : Float32) (before after : Point),
    polyline.lengths[index]? = some covered → polyline.lengths[index + 1]? = some reached →
      polyline.points[index]? = some before → polyline.points[index + 1]? = some after →
        (before == after) = false → covered < reached

theorem getElem?_points_first : polyline.points[0]? = some polyline.first :=
  Array.getElem?_eq_getElem _

theorem getElem?_points_last :
    polyline.points[polyline.points.size - 1]? = some polyline.last :=
  Array.getElem?_eq_getElem _

section Finite

variable (hpoints : ∀ point ∈ polyline.points, point.IsFinite)
  (hfinite : polyline.length.isFinite = true)

include hpoints in
theorem isFinite_of_getElem? {index : Nat} {point : Point}
    (h : polyline.points[index]? = some point) : point.IsFinite :=
  hpoints point (Array.mem_of_getElem? h)

include hpoints hfinite

/-- If no move leaves the recorded length as it is, the way is at its last point wherever this
length is that of the whole way: backwards from the end, a segment that adds nothing to it has equal
ends. -/
theorem beq_last_of_lengthens (h : polyline.Lengthens) {index : Nat} {covered : Float32}
    {point : Point} (hcovered : polyline.lengths[index]? = some covered)
    (hpoint : polyline.points[index]? = some point) (hle : polyline.length ≤ covered) :
    (point == polyline.last) = true := by
  have hindex := polyline.lt_size_of_getElem?_lengths hcovered
  obtain ⟨remaining, hremaining⟩ : ∃ remaining, index + remaining = polyline.points.size - 1 :=
    ⟨polyline.points.size - 1 - index, by omega⟩
  have hlast := polyline.getElem?_points_last
  induction remaining generalizing index covered point with
  | zero =>
    rw [← hremaining, Nat.add_zero, hpoint, Option.some_inj] at hlast
    rw [← hlast]
    exact Vector3.beq_refl_of_isFinite (isFinite_of_getElem? hpoints hpoint)
  | succ remaining ih =>
    have hnext : index + 1 < polyline.points.size := by omega
    obtain ⟨reached, hreached⟩ := polyline.exists_getElem?_lengths hnext
    have hafter := Array.getElem?_eq_getElem hnext
    have hwhole : reached ≤ polyline.length :=
      (polyline.leads_of_le (by omega) hreached polyline.getElem?_lengths_last).le
        (isNaN_of_isFinite hfinite)
    have hclimb : covered ≤ reached :=
      (polyline.leads_of_le (Nat.le_succ index) hcovered hreached).le (le_iff_level.mp hwhole).1
    have hstill : (point == polyline.points[index + 1]) = true := by
      by_contra hmoves
      have hlonger := h index covered reached point _ hcovered hreached hpoint hafter
        (Bool.eq_false_iff.mpr hmoves)
      exact Single.not_le_of_lt hlonger (Single.le_trans hwhole hle)
    have harrived := ih hreached hafter (Single.le_trans hle hclimb) hnext (by omega)
    rwa [Vector3.beq_congr_of_isFinite (isFinite_of_getElem? hpoints hpoint)
      (isFinite_of_getElem? hpoints hafter) (isFinite_of_getElem? hpoints hlast) hstill]

end Finite

/-! ### The two ends -/

section Ends

variable (hfinite : polyline.length.isFinite = true)

include hfinite

/-- A polyline begins at its first point. -/
theorem point_zero : polyline.point 0 = polyline.first := by
  have htarget : value (polyline.target 0) = 0 := by
    have hclamp : Interval.unit.clamp 0 = 0 := by decide +kernel
    rw [target, hclamp]
    exact (within_zero_iff.mp (within_zero_mul within_zero hfinite)).2
  refine point_of_reaching_eq_zero (Nat.eq_zero_of_not_pos fun hpos ↦ ?_)
  have hlt := (polyline.lt_reaching_iff _ polyline.getElem?_lengths_zero).mp hpos
  rw [lt_iff rfl (target_spec hfinite rfl).1, htarget] at hlt
  exact lt_irrefl _ hlt

variable (hlong : epsilon < polyline.length)

include hlong

theorem value_length_pos : 0 < value polyline.length := by
  have hepsilon : 0 < value epsilon := by decide +kernel
  exact hepsilon.trans ((lt_iff rfl hfinite).mp hlong)

theorem target_one : polyline.target 1 = polyline.length := by
  have hclamp : Interval.unit.clamp 1 = 1 := by decide +kernel
  obtain ⟨hproduct, hvalue⟩ := one_mul_spec hfinite
  rw [target, hclamp]
  exact eq_of_value_eq hproduct hfinite hvalue (hvalue ▸ (value_length_pos hfinite hlong).ne')

/-- The search for one finds the only point at which the recorded length becomes that of the whole
way. -/
theorem completeAt_iff (index : Nat) :
    polyline.CompleteAt index ↔ index = polyline.reaching polyline.length := by
  have htarget := target_one hfinite hlong
  have hindex := reaching_target_lt hfinite (show (1 : Float32).isNaN = false from rfl)
  rw [htarget] at hindex
  obtain ⟨reached, hreached⟩ := polyline.exists_getElem?_lengths hindex
  have hcomplete : polyline.CompleteAt (polyline.reaching polyline.length) := by
    obtain ⟨hreached_finite, -, hwhole⟩ := isFinite_lengths hfinite hreached
    have hnot : ¬ reached < polyline.length :=
      mt (polyline.lt_reaching_iff _ hreached).mpr (lt_irrefl _)
    rw [lt_iff hreached_finite hfinite, not_lt] at hnot
    have hsame : polyline.length = reached :=
      eq_of_value_eq hfinite hreached_finite (le_antisymm hnot hwhole)
        (value_length_pos hfinite hlong).ne'
    exact ⟨hsame ▸ hreached, fun earlier covered hearlier hcovered ↦
      (polyline.lt_reaching_iff _ hcovered).mp hearlier⟩
  have hirrefl : ¬ polyline.length < polyline.length := fun hlt ↦
    lt_irrefl _ ((lt_iff hfinite hfinite).mp hlt)
  refine ⟨fun h ↦ ?_, fun h ↦ h ▸ hcomplete⟩
  rcases lt_trichotomy index (polyline.reaching polyline.length) with hlt | heq | hlt
  · exact absurd (hcomplete.lt_length _ _ hlt h.lengths_eq) hirrefl
  · exact heq
  · exact absurd (h.lt_length _ _ hlt hcomplete.lengths_eq) hirrefl

/-- A polyline ends where the recorded length becomes that of the whole way. -/
theorem point_one (hpoints : ∀ point ∈ polyline.points, point.IsFinite) {index : Nat}
    (h : polyline.CompleteAt index) {point : Point}
    (hpoint : polyline.points[index]? = some point) :
    (polyline.point 1).IsFinite ∧ (polyline.point 1 == point) = true := by
  have htarget := target_one hfinite hlong
  have hsearch := (completeAt_iff hfinite hlong index).mp h
  have hpos : 0 < polyline.reaching (polyline.target 1) := by
    rw [polyline.lt_reaching_iff _ polyline.getElem?_lengths_zero, htarget, lt_iff rfl hfinite]
    exact value_length_pos hfinite hlong
  obtain ⟨covered, reached, before, after, hcovered, hreached, hbefore, hafter, hlt, -, -, -, -,
    hlies⟩ := segment_spec hfinite hlong rfl hpos
  rw [htarget] at hcovered hreached hbefore hafter hlt hlies
  rw [← hsearch] at hreached hafter
  obtain rfl : polyline.length = reached := Option.some_inj.mp (h.lengths_eq.symm.trans hreached)
  obtain rfl : point = after := Option.some_inj.mp (hpoint.symm.trans hafter)
  have hpart : (polyline.length - covered) / (polyline.length - covered) = 1 := by
    obtain ⟨hcovered_finite, hnonneg, -⟩ := isFinite_lengths hfinite hcovered
    obtain ⟨hspan, hspan_pos⟩ := span_pos hcovered_finite hfinite hnonneg
      ((lt_iff hcovered_finite hfinite).mp hlt)
    exact div_self_eq_one hspan hspan_pos.ne'
  rw [hlies, hpart]
  exact Vector3.between_one (isFinite_of_getElem? hpoints hbefore)
    (isFinite_of_getElem? hpoints hpoint)

end Ends

end Polyline

/-- The ends of a polyline of finite points, if the recorded length of its way is finite.

At zero it is at its first point. At one it is at its first point too if the length is next to
nothing. If the length is more than that, there is one point up to which the recorded length is that
of the whole way while it is less at all points before. The polyline is there at one, each
coordinate equal as a number, and so it is at its last point exactly if that point is where the last
one is. That is so if every segment between different points makes the recorded length larger. -/
theorem polyline_ends_where_complete (points : Array Point) (two_le_size : 2 ≤ points.size)
    (hpoints : ∀ point ∈ points, point.IsFinite) :
    ∃ polyline, Polyline.ofPoints points = .ok polyline ∧ polyline.points = points ∧
      points[0]? = some polyline.first ∧ points[points.size - 1]? = some polyline.last ∧
      (polyline.length.isFinite = true →
        polyline.curve.sampleClamped 0 = polyline.first ∧
        (polyline.length ≤ epsilon → polyline.curve.sampleClamped 1 = polyline.first) ∧
        (epsilon < polyline.length → ∃ index point,
          (∀ other, polyline.CompleteAt other ↔ other = index) ∧ points[index]? = some point ∧
          (polyline.curve.sampleClamped 1 == point) = true ∧
          ((polyline.curve.sampleClamped 1 == polyline.last) = true ↔
            (point == polyline.last) = true) ∧
          (polyline.Lengthens → (point == polyline.last) = true))) := by
  obtain ⟨polyline, hpolyline, rfl⟩ : ∃ polyline, Polyline.ofPoints points = .ok polyline ∧
      polyline.points = points := by
    rw [Polyline.ofPoints, dif_pos two_le_size]
    exact ⟨_, rfl, rfl⟩
  have hzero : polyline.curve.sampleClamped 0 = polyline.point 0 :=
    congrArg polyline.point (show Interval.unit.clamp 0 = 0 by decide +kernel)
  have hone : polyline.curve.sampleClamped 1 = polyline.point 1 :=
    congrArg polyline.point (show Interval.unit.clamp 1 = 1 by decide +kernel)
  refine ⟨polyline, hpolyline, rfl, polyline.getElem?_points_first, polyline.getElem?_points_last,
    fun hfinite ↦ ⟨hzero.trans (Polyline.point_zero hfinite),
      fun hshort ↦ hone.trans (if_pos hshort), fun hlong ↦ ?_⟩⟩
  have hunique := Polyline.completeAt_iff hfinite hlong
  have hcomplete := (hunique _).mpr rfl
  have hindex := polyline.lt_size_of_getElem?_lengths hcomplete.lengths_eq
  have hpoint := Array.getElem?_eq_getElem hindex
  obtain ⟨hend_finite, hend⟩ := Polyline.point_one hfinite hlong hpoints hcomplete hpoint
  have hnot_longer : polyline.length ≤ polyline.length := (le_iff hfinite hfinite).mpr le_rfl
  rw [hone]
  exact ⟨_, _, hunique, hpoint, hend,
    Vector3.beq_congr_of_isFinite hend_finite (Polyline.isFinite_of_getElem? hpoints hpoint)
      (Polyline.isFinite_of_getElem? hpoints polyline.getElem?_points_last) hend,
    fun hlengthens ↦ Polyline.beq_last_of_lengthens hpoints hfinite hlengthens
      hcomplete.lengths_eq hpoint hnot_longer⟩

/-- A way of two to the power of twenty-four and then one forth and one back, which are both lost:
its recorded length is complete before them, at a point that is where the last one is. -/
theorem lost_return_ends_at_last_point :
    let points : Array Point :=
      #[⟨0, 0, 0⟩, ⟨16777216, 0, 0⟩, ⟨16777216, 1, 0⟩, ⟨16777216, 0, 0⟩]
    2 ≤ points.size ∧ (∀ point ∈ points, point.IsFinite) ∧
      ∃ polyline, Polyline.ofPoints points = .ok polyline ∧
        polyline.lengths = #[0, 16777216, 16777216, 16777216] ∧
        polyline.length.isFinite = true ∧ epsilon < polyline.length ∧ polyline.CompleteAt 1 ∧
        polyline.curve.sampleClamped 0 = ⟨0, 0, 0⟩ ∧ polyline.last = ⟨16777216, 0, 0⟩ ∧
        (polyline.curve.sampleClamped 1 == polyline.last) = true := by
  intro points
  have hpoints : ∀ point ∈ points, point.IsFinite := by decide +kernel
  obtain ⟨polyline, hpolyline, -, -, -, hends⟩ :=
    polyline_ends_where_complete points (by decide) hpoints
  obtain rfl : ⟨points, _, by decide, rfl⟩ = polyline := Except.ok.inj hpolyline
  let polyline : Polyline := ⟨points, _, by decide, rfl⟩
  have hlengths : polyline.lengths = #[0, 16777216, 16777216, 16777216] := by decide +kernel
  have hfinite : polyline.length.isFinite = true := by decide +kernel
  have hlong : epsilon < polyline.length := by decide +kernel
  have hcomplete : polyline.CompleteAt 1 := by
    refine ⟨by decide +kernel, fun earlier covered hearlier hcovered ↦ ?_⟩
    obtain rfl := Nat.lt_one_iff.mp hearlier
    rw [hlengths] at hcovered
    obtain rfl : 0 = covered := Option.some_inj.mp hcovered
    decide +kernel
  obtain ⟨hzero, -, hone⟩ := hends hfinite
  obtain ⟨index, point, hunique, hpoint, -, hlast, -⟩ := hone hlong
  obtain rfl : 1 = index := (hunique 1).mp hcomplete
  obtain rfl : ⟨16777216, 0, 0⟩ = point := Option.some_inj.mp hpoint
  exact ⟨by decide, hpoints, polyline, hpolyline, hlengths, hfinite, hlong, hcomplete, hzero, rfl,
    hlast.mpr (by decide +kernel)⟩

/-- Two ways that do not end at their last point: one that is next to nothing, and one whose last
move is lost behind two to the power of twenty-four. -/
theorem short_and_lost_moves_do_not_arrive :
    let points : Array Point := #[⟨0, 0, 0⟩, ⟨1e-8, 0, 0⟩]
    let points' : Array Point := #[⟨0, 0, 0⟩, ⟨16777216, 0, 0⟩, ⟨16777216, 1, 0⟩]
    (∀ point ∈ points, point.IsFinite) ∧ (∀ point ∈ points', point.IsFinite) ∧
      ∃ short lost, Polyline.ofPoints points = .ok short ∧ Polyline.ofPoints points' = .ok lost ∧
        short.length.isFinite = true ∧
        short.curve.sampleClamped 1 = ⟨0, 0, 0⟩ ∧ short.last = ⟨1e-8, 0, 0⟩ ∧
        (short.curve.sampleClamped 1 == short.last) = false ∧
        lost.length.isFinite = true ∧ epsilon < lost.length ∧
        (lost.curve.sampleClamped 1 == lost.last) = false := by
  intro points points'
  refine ⟨by decide +kernel, by decide +kernel, ⟨points, _, by decide, rfl⟩,
    ⟨points', _, by decide, rfl⟩, rfl, rfl, ?_⟩
  decide +kernel

end Lindenmayer
