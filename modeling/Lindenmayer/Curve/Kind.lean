import Lindenmayer.Space.Vector

/-!
# Kinds of curves and their vertex layouts

A finished path becomes the flat vertex buffer of its kind. Straight segments and rational splines
carry a weight after the three coordinates of a point; Bezier curves do not. `CurveKind.flatten`
writes the buffer of a path, one point and its weight after the other. `CurveKind.points` knows
nothing of weights: it takes as many numbers at a time as a point occupies (`CurveKind.stride`), and
reads the first three of them. An incomplete point at the end of a buffer is not read.

A layout moves numbers without looking at them, so it is the same for coordinates of any type that
has a zero and a one to serve as weights.
-/

set_option autoImplicit false

namespace Lindenmayer

universe u

variable {α : Type u}

/-- The items of a list, `size` at a time. Items at the end that are fewer are left out. -/
def chunks (size : Nat) (hpos : 0 < size) (items : List α) : List (Vector α size) :=
  if hsize : size ≤ items.length then
    ⟨(items.take size).toArray, List.length_take_of_le hsize⟩ ::
      chunks size hpos (items.drop size)
  else []
termination_by items.length
decreasing_by
  rw [List.length_drop]
  exact Nat.sub_lt (Nat.lt_of_lt_of_le hpos hsize) hpos

theorem chunks_of_lt {size : Nat} {hpos : 0 < size} {items : List α} (h : items.length < size) :
    chunks size hpos items = [] := by
  rw [chunks, dif_neg (Nat.not_le.mpr h)]

/-- The first items of a list make a chunk if they are as many as it takes. -/
theorem chunks_append {size : Nat} {hpos : 0 < size} {items : List α} (h : items.length = size)
    (rest : List α) :
    chunks size hpos (items ++ rest) = ⟨items.toArray, h⟩ :: chunks size hpos rest := by
  have hsize : size ≤ (items ++ rest).length := by
    rw [List.length_append, h]
    exact Nat.le_add_right _ _
  rw [chunks, dif_pos hsize]
  simp only [List.take_left' h, List.drop_left' h]

/-- The kind of curve that a path is recorded for. -/
inductive CurveKind
  /-- Straight segments between the points. -/
  | poly
  /-- A rational spline through control points of full weight. -/
  | nurbs
  /-- Bezier control points, without their handles. -/
  | bezier
deriving DecidableEq, Inhabited

namespace CurveKind

/-- The weight that follows the coordinates of each point, if the kind has one. -/
def weight [OfNat α 0] [OfNat α 1] : CurveKind → Option α
  | poly => some 0
  | nurbs => some 1
  | bezier => none

/-- How many numbers a point occupies in a vertex buffer. -/
def stride : CurveKind → Nat
  | bezier => 3
  | poly | nurbs => 4

/-- A point occupies at least its coordinates. -/
theorem three_le_stride (kind : CurveKind) : 3 ≤ kind.stride := by cases kind <;> decide

theorem stride_pos (kind : CurveKind) : 0 < kind.stride :=
  Nat.lt_of_lt_of_le (Nat.zero_lt_succ 2) kind.three_le_stride

/-- Whether a corner point is recorded once more when the turtle turns. A rational spline rounds off
every corner whose point is not repeated. -/
def anchorsCorners : CurveKind → Bool
  | nurbs => true
  | poly => false
  | bezier => false

/-- The numbers that one point contributes to a vertex buffer. -/
def vertex [OfNat α 0] [OfNat α 1] (kind : CurveKind) (point : Vector3 α) : List α :=
  point.x :: point.y :: point.z :: kind.weight.toList

/-- The vertex buffer of a path. -/
def flatten [OfNat α 0] [OfNat α 1] (kind : CurveKind) (path : List (Vector3 α)) : List α :=
  path.flatMap kind.vertex

/-- The points of a vertex buffer. -/
def points (kind : CurveKind) (vertices : List α) : List (Vector3 α) :=
  (chunks kind.stride kind.stride_pos vertices).map fun chunk ↦
    have := kind.three_le_stride
    ⟨chunk[0], chunk[1], chunk[2]⟩

/-- How many points a vertex buffer encodes. -/
def pointCount (kind : CurveKind) (vertices : List α) : Nat := vertices.length / kind.stride

/-- As many numbers as a point occupies are read as one point. -/
theorem points_append (kind : CurveKind) {numbers : List α} (h : numbers.length = kind.stride)
    (rest : List α) :
    kind.points (numbers ++ rest) =
      have := kind.three_le_stride
      ⟨numbers[0], numbers[1], numbers[2]⟩ :: kind.points rest := by
  rw [points, chunks_append h]
  rfl

section

variable [OfNat α 0] [OfNat α 1] (kind : CurveKind)

/-- The coordinates of a point and its weight take up the stride of the kind. -/
theorem length_vertex (point : Vector3 α) : (kind.vertex point).length = kind.stride := by
  cases kind <;> rfl

theorem length_flatten (path : List (Vector3 α)) :
    (kind.flatten path).length = path.length * kind.stride := by
  induction path with
  | nil => simp [flatten]
  | cons point path ih =>
    simp only [flatten, List.flatMap_cons, List.length_append, length_vertex,
      List.length_cons] at ih ⊢
    rw [ih, Nat.succ_mul, Nat.add_comm]

/-- The buffer of a path encodes as many points as the path has. -/
theorem pointCount_flatten (path : List (Vector3 α)) :
    kind.pointCount (kind.flatten path) = path.length := by
  rw [pointCount, length_flatten, Nat.mul_div_cancel _ kind.stride_pos]

/-- The first point of a buffer is the one whose numbers stand in front. -/
theorem points_vertex_append (point : Vector3 α) (vertices : List α) :
    kind.points (kind.vertex point ++ vertices) = point :: kind.points vertices :=
  kind.points_append (kind.length_vertex point) vertices

/-- The points of the buffer of a path are those of the path. -/
theorem points_flatten (path : List (Vector3 α)) : kind.points (kind.flatten path) = path := by
  induction path with
  | nil => exact congrArg _ (chunks_of_lt kind.stride_pos)
  | cons point path ih =>
    rw [flatten, List.flatMap_cons, ← flatten, points_vertex_append, ih]

end

end CurveKind

end Lindenmayer
