import Lindenmayer.Curve.Outline

/-!
# Canvases

A canvas receives the outlines of finished curves, one at a time, and answers each with a handle.
What the handle means is the canvas's own affair. A `Sketchbook` keeps every outline and answers
with its place in the book; a `PointTally` keeps them too and answers with the number of points
drawn so far. A canvas can also be lent: a `Lent` canvas passes every outline on to the canvas of
its owner.
-/

set_option autoImplicit false

namespace Lindenmayer

/-- Canvases of type `σ` that answer with handles of type `η`. -/
class Canvas (σ : Type) (η : outParam Type) where
  /-- The canvas with one more curve on it, and the handle of that curve. -/
  draw : σ → Outline → σ × η

/-- A canvas that belongs to somebody else, who finds everything on it that was drawn meanwhile. -/
structure Lent (σ : Type) where
  /-- The canvas of the owner. -/
  canvas : σ

/-- What is drawn on a lent canvas is drawn on the canvas of the owner, who also chooses the handle.
-/
instance {σ η : Type} [Canvas σ η] : Canvas (Lent σ) η where
  draw lent outline :=
    let (canvas, handle) := Canvas.draw lent.canvas outline
    (⟨canvas⟩, handle)

/-- A canvas that keeps every outline it is given. -/
structure Sketchbook (α : Type := Float32) where
  outlines : Array (Outline α) := #[]
deriving BEq, DecidableEq

/-- The book with one more outline, and the index of that outline, counted from zero. -/
def Sketchbook.keep {α : Type} (book : Sketchbook α) (outline : Outline α) : Sketchbook α × Nat :=
  (⟨book.outlines.push outline⟩, book.outlines.size)

/-- The handle of a sketch is its index in the book. -/
instance : Canvas Sketchbook Nat := ⟨Sketchbook.keep⟩

/-- A canvas that keeps every outline it is given and counts their points. -/
structure PointTally where
  outlines : Array Outline := #[]
  /-- The number of points of all outlines together. -/
  total : Nat := 0
deriving BEq, DecidableEq

/-- The handle of a curve is the number of points of all curves up to it, itself included. -/
instance : Canvas PointTally Nat where
  draw tally outline :=
    let total := tally.total + outline.pointCount
    (⟨tally.outlines.push outline, total⟩, total)

end Lindenmayer
