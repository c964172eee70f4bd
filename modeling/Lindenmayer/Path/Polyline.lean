import Lindenmayer.Path.Curve
import Lindenmayer.Path.Search
import Lindenmayer.Single.Rounding

/-!
# Polylines

A polyline joins two or more points by straight segments. It carries the length of the way from the
first point to each of its points, and as a curve on the unit interval its parameter is the part of
the whole way that is covered. The segment of a parameter is found by halves among these lengths: it
ends at the first point whose length is not below the one aimed at.
-/

set_option autoImplicit false

namespace Lindenmayer

/-- Why a list of points is not a polyline. -/
inductive PolylineError
  /-- There are fewer than two points. -/
  | tooFew (points : Nat)
deriving DecidableEq

/-- The wording of an unusable list of points. -/
def PolylineError.message : PolylineError → String
  | tooFew points => s!"a polyline curve needs at least two points, got {points}"

/-- The lengths of the way to each point in turn, when the way to the first has length `covered`. -/
def lengthsFrom (covered : Float32) : List Point → List Float32
  | [] => []
  | [_] => [covered]
  | point :: next :: rest =>
    covered :: lengthsFrom (covered + point.distance next) (next :: rest)

theorem length_lengthsFrom (covered : Float32) (points : List Point) :
    (lengthsFrom covered points).length = points.length := by
  fun_induction lengthsFrom covered points with
  | case1 => rfl
  | case2 => rfl
  | case3 covered point next rest ih => simpa using ih

/-- Two or more points joined by segments, with the length of the way to each of them. -/
structure Polyline where
  points : Array Point
  /-- The lengths of the way from the first point to each point. -/
  lengths : Array Float32
  two_le_size : 2 ≤ points.size
  lengths_eq : lengths = (lengthsFrom 0 points.toList).toArray

namespace Polyline

/-- The polyline of a list of points, if there are enough of them. -/
def ofPoints (points : Array Point) : Except PolylineError Polyline :=
  if two_le_size : 2 ≤ points.size then
    .ok { points, two_le_size, lengths := (lengthsFrom 0 points.toList).toArray, lengths_eq := rfl }
  else .error (.tooFew points.size)

/-- Every point has the length of the way to it. -/
theorem size_lengths (polyline : Polyline) : polyline.lengths.size = polyline.points.size := by
  simp [polyline.lengths_eq, length_lengthsFrom]

theorem pred_size_lt (polyline : Polyline) : polyline.points.size - 1 < polyline.points.size :=
  Nat.sub_lt (Nat.lt_of_lt_of_le Nat.zero_lt_two polyline.two_le_size) Nat.one_pos

/-- The first of the points. -/
def first (polyline : Polyline) : Point :=
  have := polyline.two_le_size
  polyline.points[0]

/-- The last of the points. -/
def last (polyline : Polyline) : Point :=
  have := polyline.pred_size_lt
  polyline.points[polyline.points.size - 1]

/-- The length of the whole way. -/
def length (polyline : Polyline) : Float32 :=
  have := polyline.size_lengths
  have := polyline.pred_size_lt
  polyline.lengths[polyline.points.size - 1]

/-- The least index of a point to which the way has at least the length `target`, or the number of
points if the way to none of them has. -/
def reaching (polyline : Polyline) (target : Float32) : Nat :=
  partitionPoint polyline.points.size fun index ↦
    polyline.lengths[index]?.any fun covered ↦ covered < target

/-- The point at the length `target` on the segment that ends at the point with index `index`. -/
def onSegment (polyline : Polyline) (target : Float32) (index : Nat)
    (inRange : index < polyline.points.size) : Point :=
  have := polyline.size_lengths
  let covered := polyline.lengths[index - 1]
  let span := polyline.lengths[index] - covered
  let part := if 0 < span then (target - covered) / span else 0
  polyline.points[index - 1].between polyline.points[index] part

/-- The point at a part of the whole way. A polyline whose length is next to nothing is at its first
point all the time. -/
def point (polyline : Polyline) (parameter : Float32) : Point :=
  if polyline.length ≤ Single.epsilon then polyline.first
  else
    let target := Interval.unit.clamp parameter * polyline.length
    let index := polyline.reaching target
    if index = 0 then polyline.first
    else if inRange : index < polyline.points.size then polyline.onSegment target index inRange
    else polyline.last

/-- A polyline as a curve that is travelled from zero to one. -/
def curve (polyline : Polyline) : Curve := ⟨.unit, polyline.point⟩

end Polyline

end Lindenmayer
