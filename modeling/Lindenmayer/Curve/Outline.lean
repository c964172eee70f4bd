import Lindenmayer.Curve.Kind

/-!
# Outlines of finished curves

An `Outline` is all that a canvas is told about one finished curve: its name, its kind, its vertex
buffer and the options of the turtle that recorded it. The points are read back from the buffer.
The coordinates are singles unless it is said that they are something else.
-/

set_option autoImplicit false

namespace Lindenmayer

/-- How the handles of Bezier control points are to be derived. -/
inductive HandleStyle
  | automatic
  | vector
  | aligned
  | free
deriving DecidableEq, Inhabited

/-- Whether a curve lies in a plane or in space. -/
inductive Dimensions
  | two
  | three
deriving DecidableEq, Inhabited

/-- What a canvas is asked for with every curve of a turtle. -/
structure CurveOptions where
  /-- The last point is joined to the first. -/
  cyclic : Bool := false
  /-- The curve passes through its end points. -/
  endpoint : Bool := true
  /-- The order of a rational spline. -/
  order : UInt8 := 2
  /-- The curve can serve as a path of motion. -/
  usePath : Bool := true
  handleStyle : HandleStyle := .automatic
  dimensions : Dimensions := .two
  /-- A transformation of the finished curve, as a matrix of four columns. -/
  transform : Option (Vector Float32 16) := none
deriving BEq, DecidableEq

instance : Inhabited CurveOptions := ⟨{}⟩

/-- A finished curve, ready to be drawn. -/
structure Outline (α : Type := Float32) where
  name : String
  kind : CurveKind
  /-- The vertex buffer of the curve. -/
  vertices : List α
  options : CurveOptions
deriving BEq, DecidableEq, Inhabited

namespace Outline

variable {α : Type}

/-- How many points the vertex buffer encodes. -/
def pointCount (outline : Outline α) : Nat := outline.kind.pointCount outline.vertices

/-- The points of the vertex buffer, without their weights. -/
def points (outline : Outline α) : List (Vector3 α) := outline.kind.points outline.vertices

end Outline

end Lindenmayer
