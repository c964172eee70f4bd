import Lindenmayer.Curve.Canvas
import Mathlib.Data.List.Basic

/-!
# Points and their vertex buffers

A path and its vertex buffer say the same thing, apart from the weights. What is written is read
back (`CurveKind.points_flatten`), because the weight that is written after a point takes up what
the stride leaves behind the coordinates (`CurveKind.length_vertex`). Reading a buffer and writing
its points again gives the complete points of the buffer, with the weight of the kind in every
weight slot (`CurveKind.flatten_points`). So a buffer is the buffer of its points exactly when no
incomplete point stands at its end and all its weights are those of the kind
(`CurveKind.flatten_points_eq_iff`).

A buffer is taken apart one point at a time (`CurveKind.buffer_induction`). As many numbers as a
point occupies are read as one point, whatever their weight (`CurveKind.exists_vertex`), and they
are restored on their own (`CurveKind.restored_append`).

Coordinates may be of any type with a zero and a one. So nothing depends on how singles are
compared: the layout also keeps their bit patterns, of which several stand for what is not a number.

`CurveKind.points_and_vertices_agree` puts both directions together, for what a turtle asks a canvas
to draw and for what a sketchbook keeps of it.
-/

set_option autoImplicit false

namespace Lindenmayer

universe u

namespace CurveKind

variable {α : Type u} (kind : CurveKind)

/-! ### One point after the other -/

theorem points_of_lt {vertices : List α} (h : vertices.length < kind.stride) :
    kind.points vertices = [] := by
  rw [points, chunks_of_lt h, List.map_nil]

/-- What holds of a buffer without a complete point, and of a buffer with one point more in front,
holds of every buffer. -/
theorem buffer_induction {motive : List α → Prop}
    (short : ∀ vertices, vertices.length < kind.stride → motive vertices)
    (point : ∀ numbers rest, numbers.length = kind.stride → motive rest → motive (numbers ++ rest))
    (vertices : List α) : motive vertices := by
  by_cases hlt : vertices.length < kind.stride
  · exact short vertices hlt
  · have hle : kind.stride ≤ vertices.length := Nat.le_of_not_lt hlt
    have hshorter : vertices.length - kind.stride < vertices.length :=
      Nat.sub_lt (Nat.lt_of_lt_of_le kind.stride_pos hle) kind.stride_pos
    rw [← List.take_append_drop kind.stride vertices]
    exact point _ _ (List.length_take_of_le hle) (buffer_induction short point _)
termination_by vertices.length
decreasing_by rwa [List.length_drop]

/-- The numbers of a point in front make one point more. -/
theorem pointCount_append {numbers : List α} (hlength : numbers.length = kind.stride)
    (rest : List α) : kind.pointCount (numbers ++ rest) = kind.pointCount rest + 1 := by
  rw [pointCount, List.length_append, hlength, Nat.add_div_left _ kind.stride_pos, pointCount]

/-- A buffer is read to as many points as it encodes. -/
theorem length_points (vertices : List α) :
    (kind.points vertices).length = kind.pointCount vertices := by
  induction vertices using kind.buffer_induction with
  | short vertices hlt =>
    rw [kind.points_of_lt hlt, pointCount, Nat.div_eq_of_lt hlt, List.length_nil]
  | point numbers rest hlength ih =>
    rw [kind.points_append hlength, List.length_cons, ih, kind.pointCount_append hlength]

/-! ### Weight slots -/

variable [OfNat α 0] [OfNat α 1]

/-- The number itself, unless it stands where a point of this kind has its weight: there it is the
weight of the kind. -/
def reweigh (index : Nat) (number : α) : α :=
  if index % kind.stride = 3 then kind.weight.getD number else number

/-- The complete points of a buffer, with the weight of the kind in every weight slot. -/
def restored (vertices : List α) : List α :=
  (vertices.take (kind.pointCount vertices * kind.stride)).mapIdx kind.reweigh

/-- Weight slots recur after every point. -/
theorem reweigh_add_stride (index : Nat) :
    (kind.reweigh (index + kind.stride) : α → α) = kind.reweigh index := by
  funext number
  rw [reweigh, reweigh, Nat.add_mod_right]

/-- The slots are left alone exactly when each of them holds the weight already. -/
theorem mapIdx_reweigh_eq_iff (vertices : List α) :
    vertices.mapIdx kind.reweigh = vertices ↔
      ∀ (index : Nat) (weight number : α), index % kind.stride = 3 → kind.weight = some weight →
        vertices[index]? = some number → number = weight := by
  rw [List.mapIdx_eq_iff]
  constructor
  · intro hkept index weight number hslot hweight hnumber
    have hnew := hkept index
    rw [hnumber, Option.map_some, reweigh, if_pos hslot, hweight] at hnew
    exact Option.some.inj hnew
  · intro hweights index
    cases hnumber : vertices[index]? with
    | none => rfl
    | some number =>
      rw [Option.map_some, reweigh]
      split
      · cases hweight : (kind.weight : Option α) with
        | none => rfl
        | some weight =>
          rw [hweights index weight number ‹_› hweight hnumber, Option.getD_some]
      · rfl

theorem restored_of_lt {vertices : List α} (h : vertices.length < kind.stride) :
    kind.restored vertices = [] := by
  rw [restored, pointCount, Nat.div_eq_of_lt h, Nat.zero_mul, List.take_zero, List.mapIdx_nil]

theorem restored_append {numbers : List α} (hlength : numbers.length = kind.stride)
    (rest : List α) :
    kind.restored (numbers ++ rest) = numbers.mapIdx kind.reweigh ++ kind.restored rest := by
  have hcount : kind.pointCount (numbers ++ rest) * kind.stride =
      numbers.length + kind.pointCount rest * kind.stride := by
    rw [kind.pointCount_append hlength, Nat.succ_mul, Nat.add_comm, hlength]
  rw [restored, hcount, List.take_length_add_append, List.mapIdx_append, hlength]
  simp only [reweigh_add_stride]
  rfl

/-- As many numbers as a point occupies are the vertex of a point, apart from their weight. -/
theorem exists_vertex {numbers : List α} (hlength : numbers.length = kind.stride) :
    ∃ point, numbers.mapIdx kind.reweigh = kind.vertex point ∧
      ∀ rest, kind.points (numbers ++ rest) = point :: kind.points rest := by
  refine ⟨_, ?_, kind.points_append hlength⟩
  cases kind with
  | bezier =>
    obtain ⟨x, y, z, rfl⟩ := List.length_eq_three.mp hlength
    rfl
  | poly | nurbs =>
    obtain ⟨x, y, z, weight, rfl⟩ := List.length_eq_four.mp hlength
    rfl

/-! ### Whole buffers -/

/-- Reading a buffer and writing its points again restores its complete points. -/
theorem flatten_points (vertices : List α) :
    kind.flatten (kind.points vertices) = kind.restored vertices := by
  induction vertices using kind.buffer_induction with
  | short vertices hlt =>
    rw [kind.points_of_lt hlt, kind.restored_of_lt hlt]
    rfl
  | point numbers rest hlength ih =>
    obtain ⟨point, hvertex, hpoints⟩ := kind.exists_vertex hlength
    rw [hpoints, flatten, List.flatMap_cons, ← flatten, ih, kind.restored_append hlength, hvertex]

/-- A buffer is the buffer of its points if nothing stands behind its last point and all its weights
are those of the kind, and only then. -/
theorem flatten_points_eq_iff (vertices : List α) :
    kind.flatten (kind.points vertices) = vertices ↔
      kind.stride ∣ vertices.length ∧
        ∀ (index : Nat) (weight number : α), index % kind.stride = 3 →
          kind.weight = some weight → vertices[index]? = some number → number = weight := by
  have hcomplete (hdvd : kind.stride ∣ vertices.length) :
      kind.restored vertices = vertices.mapIdx kind.reweigh := by
    rw [restored, pointCount, Nat.div_mul_cancel hdvd, List.take_length]
  constructor
  · intro heq
    have hdvd : kind.stride ∣ vertices.length := by
      rw [← heq, length_flatten]
      exact Nat.dvd_mul_left _ _
    rw [flatten_points, hcomplete hdvd, mapIdx_reweigh_eq_iff] at heq
    exact ⟨hdvd, heq⟩
  · rintro ⟨hdvd, hweights⟩
    rw [flatten_points, hcomplete hdvd, mapIdx_reweigh_eq_iff]
    exact hweights

end CurveKind

/-- Points and vertices agree, both ways, for coordinates of any type.

A curve whose vertices are the buffer of a path encodes as many points as the path has, and so does
what a sketchbook keeps of it, which also gives the points back.

Any outline gives as many points as it encodes, which is the number of its vertices divided by the
stride of its kind. The buffer of these points has the vertices of the complete points, with the
weight of the kind instead of every fourth number if the kind has a weight. It is the buffer of the
outline exactly when the stride divides the number of vertices and every weight slot holds the
weight of the kind. -/
theorem CurveKind.points_and_vertices_agree {α : Type} [OfNat α 0] [OfNat α 1] (kind : CurveKind) :
    (∀ (path : List (Vector3 α)) (name : String) (options : CurveOptions) (book : Sketchbook α),
      let request : Outline α := { name, kind, vertices := kind.flatten path, options }
      let (filled, handle) := book.keep request
      request.pointCount = path.length ∧
        ∃ record, filled.outlines[handle]? = some record ∧
          record.pointCount = path.length ∧ record.points = path) ∧
      ∀ record : Outline α, record.kind = kind →
        record.points.length = record.pointCount ∧
          record.pointCount = record.vertices.length / kind.stride ∧
          kind.flatten record.points =
            (record.vertices.take (record.pointCount * kind.stride)).mapIdx
              (fun index number ↦
                if index % kind.stride = 3 then kind.weight.getD number else number) ∧
          (kind.flatten record.points = record.vertices ↔
            kind.stride ∣ record.vertices.length ∧
              ∀ (index : Nat) (weight number : α), index % kind.stride = 3 →
                kind.weight = some weight → record.vertices[index]? = some number →
                  number = weight) := by
  constructor
  · intro path name options book
    refine ⟨kind.pointCount_flatten path, _, Array.getElem?_push_size, ?_, ?_⟩
    · exact kind.pointCount_flatten path
    · exact kind.points_flatten path
  · rintro record rfl
    exact ⟨record.kind.length_points _, rfl, record.kind.flatten_points _,
      record.kind.flatten_points_eq_iff _⟩

end Lindenmayer
