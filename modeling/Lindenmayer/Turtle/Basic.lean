import Lindenmayer.Curve.Outline
import Lindenmayer.Turtle.Snapshot

/-!
# Turtles

A turtle is a live snapshot over a stack of saved ones. Pushing saves a copy of the live snapshot
and popping puts the last saved one in its place; both can be refused, and return the turtle in
either case. A refused operation has changed nothing (`Turtle.push_of_error`,
`Turtle.pop_of_error`). The depth of a turtle counts the live snapshot, and the setup bounds it.
Lifting the pen returns the outline of the finished curve, if one was recorded.
-/

set_option autoImplicit false

namespace Lindenmayer

/-- What a turtle is given at its construction. -/
structure Setup where
  /-- Where the turtle starts. -/
  origin : Point := Vector3.zero
  /-- The largest number of snapshots, the live one included. -/
  maxDepth : UInt64 := 1024
  /-- The options of every curve of the turtle. -/
  options : CurveOptions := {}
deriving BEq, DecidableEq

instance : Inhabited Setup := ⟨{}⟩

/-- Why a stack operation is refused. -/
inductive StackError
  /-- There is no saved snapshot to return to. -/
  | empty
  /-- The stack already has its largest depth. -/
  | overflow (maxDepth : Nat)
deriving DecidableEq

/-- The wording of a refused stack operation. -/
def StackError.message : StackError → String
  | empty => "cannot pop the last turtle state"
  | overflow maxDepth => s!"state stack exceeded its maximum depth of {maxDepth}"

/-- A turtle: a name, a setup, a live snapshot and the saved ones, last saved first. -/
structure Turtle where
  name : String
  setup : Setup
  live : Snapshot
  saved : List Snapshot
deriving BEq, DecidableEq, Inhabited

namespace Turtle

/-- A turtle at the origin of its setup with nothing saved. -/
def initial (name : String) (kind : CurveKind) (setup : Setup) : Turtle where
  name := name
  setup := setup
  live := .initial setup.origin kind
  saved := []

/-- The number of snapshots, the live one included. -/
def depth (turtle : Turtle) : Nat := turtle.saved.length + 1

/-- The name of the turtle's curves. -/
def curveName (turtle : Turtle) : String := turtle.name ++ "-curve"

/-- The outline of a path that the turtle has recorded. -/
def outline (turtle : Turtle) (path : Array Point) : Outline where
  name := turtle.curveName
  kind := turtle.live.kind
  vertices := turtle.live.kind.flatten path.toList
  options := turtle.setup.options

theorem points_outline (turtle : Turtle) (path : Array Point) :
    (turtle.outline path).points = path.toList :=
  turtle.live.kind.points_flatten path.toList

/-- Moves along the heading. -/
def forward [Trigonometry] (turtle : Turtle) (distance : Float32) : Turtle :=
  { turtle with live := turtle.live.forward distance }

/-- Turns by an angle, counter-clockwise if it is positive. -/
def turn (turtle : Turtle) (angle : Float32) : Turtle :=
  { turtle with live := turtle.live.turn angle }

/-- Sets the pen down. -/
def lowerPen (turtle : Turtle) : Turtle := { turtle with live := turtle.live.lowerPen }

/-- Lifts the pen, with the outline of the curve that is thereby finished. -/
def liftPen (turtle : Turtle) : Turtle × Option Outline :=
  let (live, path) := turtle.live.liftPen
  let turtle := { turtle with live := live }
  (turtle, path.map turtle.outline)

/-- Saves a copy of the live snapshot, unless the stack is full. -/
def push (turtle : Turtle) : Turtle × Except StackError Unit :=
  let maxDepth := turtle.setup.maxDepth.toNat
  if maxDepth ≤ turtle.depth then (turtle, .error (.overflow maxDepth))
  else ({ turtle with saved := turtle.live :: turtle.saved }, .ok ())

/-- Returns to the snapshot saved last, and drops the live one. -/
def pop (turtle : Turtle) : Turtle × Except StackError Unit :=
  match turtle.saved with
  | [] => (turtle, .error .empty)
  | live :: saved => ({ turtle with live := live, saved := saved }, .ok ())

/-- A refused push changes nothing. -/
theorem push_of_error {turtle : Turtle} {error : StackError} (h : turtle.push.2 = .error error) :
    turtle.push.1 = turtle := by
  rw [push] at h ⊢
  split at h
  · rw [if_pos ‹_›]
  · cases h

/-- A refused pop changes nothing. -/
theorem pop_of_error {turtle : Turtle} {error : StackError} (h : turtle.pop.2 = .error error) :
    turtle.pop.1 = turtle := by
  rw [pop] at h ⊢
  split at h
  · rfl
  · cases h

end Turtle

end Lindenmayer
