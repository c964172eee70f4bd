import Lindenmayer.Curve.Kind
import Lindenmayer.Turtle.Heading

/-!
# Snapshots of a turtle

A snapshot is everything about a turtle that its stack can save: where it is, where it faces,
whether its pen is down, the path since the pen was set down, and the kind of curve it records for.
The operations here touch only the snapshot they are given and return the new one; lifting the pen
also returns the recorded path when there is a curve in it.
-/

set_option autoImplicit false

namespace Lindenmayer

/-- Where a turtle is, where it faces and what it has recorded. -/
structure Snapshot where
  position : Point
  heading : Float32
  penDown : Bool
  /-- The points recorded since the current path began. -/
  path : Array Point
  kind : CurveKind
deriving BEq, DecidableEq

namespace Snapshot

variable [Trigonometry]

/-- A turtle at `origin` with its pen up, facing along the first axis. -/
def initial (origin : Point) (kind : CurveKind) : Snapshot where
  position := origin
  heading := 0
  penDown := false
  path := #[origin]
  kind := kind

/-- By default a turtle records straight segments, from the origin of the coordinates. -/
instance : Inhabited Snapshot := ⟨initial Vector3.zero .poly⟩

/-- The direction in which the turtle moves. -/
def direction (snapshot : Snapshot) : Point := Lindenmayer.direction snapshot.heading

/-- Records the position. -/
def record (snapshot : Snapshot) : Snapshot :=
  { snapshot with path := snapshot.path.push snapshot.position }

/-- Begins a new path at the position. -/
def restartPath (snapshot : Snapshot) : Snapshot :=
  { snapshot with path := #[snapshot.position] }

/-- Moves along the heading; with the pen down the new position is recorded. -/
def forward (snapshot : Snapshot) (distance : Float32) : Snapshot :=
  let moved := { snapshot with position := snapshot.position + snapshot.direction.scale distance }
  if moved.penDown then moved.record else moved

/-- Turns by an angle; with the pen down a kind that anchors its corners records the corner first.
-/
def turn (snapshot : Snapshot) (angle : Float32) : Snapshot :=
  let anchored :=
    if snapshot.penDown && snapshot.kind.anchorsCorners then snapshot.record else snapshot
  { anchored with heading := wrapHeading (anchored.heading + angle) }

/-- Sets the pen down and begins a new path, unless the pen is down already. -/
def lowerPen (snapshot : Snapshot) : Snapshot :=
  if snapshot.penDown then snapshot else { snapshot with penDown := true }.restartPath

/-- Lifts the pen. A path of two or more points is finished and returned, and a new path begins. -/
def liftPen (snapshot : Snapshot) : Snapshot × Option (Array Point) :=
  let lifted := { snapshot with penDown := false }
  if 1 < lifted.path.size then (lifted.restartPath, some lifted.path) else (lifted, none)

end Snapshot

end Lindenmayer
