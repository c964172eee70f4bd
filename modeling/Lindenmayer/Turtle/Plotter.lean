import Lindenmayer.Curve.Canvas
import Lindenmayer.Event
import Lindenmayer.Turtle.Basic

/-!
# Plotters

A plotter is a turtle at work on a canvas: whenever lifting the pen finishes a curve, the outline
goes to the canvas, and the handle that comes back is kept after the handles of all earlier curves.

`Plotter.attempt` carries out one command. A command that is refused leaves the plotter as it was
and no event behind (`Plotter.attempt_of_refused`). `Plotter.attemptAll` carries out a list of
commands and goes on after a refusal.
-/

set_option autoImplicit false

namespace Lindenmayer

/-- What a turtle can be told to do. -/
inductive Command
  /-- Move by a distance. -/
  | forward (distance : Float32)
  /-- Turn by an angle in radians. -/
  | turn (angle : Float32)
  | penDown
  | penUp
  /-- Save the live snapshot. -/
  | push
  /-- Return to the snapshot saved last. -/
  | pop
  /-- Do nothing. -/
  | ignore
deriving BEq, DecidableEq, Inhabited

/-- A turtle, the canvas it draws on and the handles of the curves drawn so far, oldest first. -/
structure Plotter (σ η : Type) where
  turtle : Turtle
  canvas : σ
  handles : Array η := #[]

/-- What has come of lifting the pen: the plotter after it, the handle of the curve that it
finished, if any, and the events it left. -/
structure Lifted (σ η : Type) where
  plotter : Plotter σ η
  handle : Option η
  events : List Event

/-- What has come of a command: the plotter after it, the handle of the curve it finished or the
reason for its refusal, and the events it left. -/
structure Attempt (σ η : Type) where
  plotter : Plotter σ η
  result : Except StackError (Option η)
  events : List Event

namespace Plotter

variable {σ η : Type}

/-- The plotter with another turtle. -/
@[inline] def withTurtle (plotter : Plotter σ η) (turtle : Turtle) : Plotter σ η :=
  { plotter with turtle := turtle }

/-- Carries out a command that draws nothing and cannot be refused. -/
@[inline] def follow (plotter : Plotter σ η) (turtle : Turtle) : Attempt σ η :=
  ⟨plotter.withTurtle turtle, .ok none, []⟩

/-- Carries out a stack operation, which draws nothing but can be refused. -/
def settle (plotter : Plotter σ η) (operation : Turtle × Except StackError Unit) : Attempt σ η :=
  ⟨plotter.withTurtle operation.1, operation.2.map fun _ ↦ none, []⟩

/-- A refused stack operation is refused for the same reason, however its result is put. -/
theorem eq_error_of_map {α : Type} {result : Except StackError Unit} {answer : Unit → α}
    {error : StackError} (h : result.map answer = .error error) : result = .error error := by
  cases result with
  | ok _ => cases h
  | error _ =>
    cases h
    rfl

variable [Trigonometry] [Canvas σ η]

/-- Hands a finished curve to the canvas. -/
def draw (plotter : Plotter σ η) (outline : Outline) : Lifted σ η :=
  let (canvas, handle) := Canvas.draw plotter.canvas outline
  { plotter := { plotter with canvas := canvas, handles := plotter.handles.push handle }
    handle := some handle
    events := [.created plotter.turtle.name outline.pointCount outline.kind] }

/-- Lifts the pen and draws the curve that is thereby finished, if there is one. -/
def liftPen (plotter : Plotter σ η) : Lifted σ η :=
  let (turtle, outline) := plotter.turtle.liftPen
  let plotter := plotter.withTurtle turtle
  match outline with
  | none => ⟨plotter, none, []⟩
  | some outline => plotter.draw outline

/-- Carries out a command. -/
def attempt (plotter : Plotter σ η) : Command → Attempt σ η
  | .forward distance => plotter.follow (plotter.turtle.forward distance)
  | .turn angle => plotter.follow (plotter.turtle.turn angle)
  | .penDown => plotter.follow plotter.turtle.lowerPen
  | .penUp =>
    let lifted := plotter.liftPen
    ⟨lifted.plotter, .ok lifted.handle, lifted.events⟩
  | .push => plotter.settle plotter.turtle.push
  | .pop => plotter.settle plotter.turtle.pop
  | .ignore => plotter.follow plotter.turtle

/-- A refused command leaves the plotter as it was and no event behind. -/
theorem attempt_of_refused {plotter : Plotter σ η} {command : Command} {error : StackError}
    (h : (plotter.attempt command).result = .error error) :
    plotter.attempt command = ⟨plotter, .error error, []⟩ := by
  cases command with
  | forward _ | turn _ | penDown | penUp | ignore => cases h
  | push =>
    have hpush := eq_error_of_map h
    rw [attempt, settle, Turtle.push_of_error hpush, hpush]
    rfl
  | pop =>
    have hpop := eq_error_of_map h
    rw [attempt, settle, Turtle.pop_of_error hpop, hpop]
    rfl

/-- The plotter after a list of commands of which those that are refused change nothing. -/
def attemptAll (plotter : Plotter σ η) (commands : List Command) : Plotter σ η :=
  commands.foldl (fun plotter command ↦ (plotter.attempt command).plotter) plotter

end Plotter

end Lindenmayer
