import Lindenmayer.Proofs.Turtle.Stroke

/-!
# The curves of a list of commands

A turtle that begins with its pen up and does not use its stack draws one curve for each stroke that
is closed and has two points or more. The points of a stroke come from the places of the commands,
and `Turtle.place` finds these without a pen: it leaves out everything but the moves and the turns.

`Turtle.Traces` is the invariant of a run. While the pen is up, the turtle is idle: it has no point
or one on its path, so lifting the pen again finishes nothing. While the pen is down, the path is
the points of the open stroke. `Turtle.Traces.concat` is the step and `Turtle.traces` the run;
`drawn_eq_strokes` is what follows for a plotter with any canvas.
-/

set_option autoImplicit false

namespace Lindenmayer

open Command

/-! ### Places -/

namespace Snapshot

/-- Two snapshots at one position and with one heading. -/
def SamePlace (first second : Snapshot) : Prop :=
  first.position = second.position ∧ first.heading = second.heading

/-- Where a command leads depends on the place alone. -/
theorem SamePlace.perform {first second : Snapshot} (h : first.SamePlace second)
    (command : Command) : (first.perform command).SamePlace (second.perform command) := by
  obtain ⟨hposition, hheading⟩ := h
  cases command with
  | forward distance =>
    rw [Snapshot.perform, Snapshot.perform, forward_eq, forward_eq]
    constructor
    · show first.position + first.direction.scale distance =
        second.position + second.direction.scale distance
      rw [hposition, direction, direction, hheading]
    · exact hheading
  | turn angle =>
    rw [Snapshot.perform, Snapshot.perform, turn_eq, turn_eq]
    constructor
    · exact hposition
    · show wrapHeading (first.heading + angle) = wrapHeading (second.heading + angle)
      rw [hheading]
  | penDown =>
    rw [Snapshot.perform, Snapshot.perform, lowerPen_eq, lowerPen_eq]
    exact ⟨hposition, hheading⟩
  | penUp =>
    rw [Snapshot.perform, Snapshot.perform, liftPen_eq, liftPen_eq]
    exact ⟨hposition, hheading⟩
  | push | pop | ignore => exact ⟨hposition, hheading⟩

/-- A command that is no motion leads nowhere. -/
theorem samePlace_perform (snapshot : Snapshot) {command : Command}
    (h : command.isMotion = false) : (snapshot.perform command).SamePlace snapshot := by
  cases command with
  | forward _ | turn _ => cases h
  | penDown =>
    rw [perform, lowerPen_eq]
    exact ⟨rfl, rfl⟩
  | penUp =>
    rw [perform, liftPen_eq]
    exact ⟨rfl, rfl⟩
  | push | pop | ignore => exact ⟨rfl, rfl⟩

/-- A list of commands leads to the place to which its motions lead. -/
theorem SamePlace.performAll_filter {first second : Snapshot} (h : first.SamePlace second)
    (commands : List Command) :
    (first.performAll commands).SamePlace (second.performAll (commands.filter (·.isMotion))) := by
  induction commands generalizing first second with
  | nil => exact h
  | cons command rest ih =>
    cases hmotion : command.isMotion with
    | true =>
      rw [List.filter_cons_of_pos hmotion]
      exact ih (h.perform command)
    | false =>
      rw [List.filter_cons_of_neg (by rw [hmotion]; exact Bool.false_ne_true)]
      have hstay := first.samePlace_perform hmotion
      exact ih ⟨hstay.1.trans h.1, hstay.2.trans h.2⟩

end Snapshot

namespace Turtle

/-- The position after a list of commands, by its moves and turns alone. -/
def place (turtle : Turtle) (commands : List Command) : Point :=
  (turtle.after (commands.filter (·.isMotion))).live.position

theorem position_after (turtle : Turtle) {commands : List Command}
    (hplain : ∀ command ∈ commands, command.isStack = false) :
    (turtle.after commands).live.position = turtle.place commands := by
  have hmotions : ∀ command ∈ commands.filter (·.isMotion), command.isStack = false :=
    fun command hcommand ↦ hplain command (List.mem_filter.mp hcommand).1
  have hsame : turtle.live.SamePlace turtle.live := ⟨rfl, rfl⟩
  rw [place, turtle.after_of_not_isStack hplain, turtle.after_of_not_isStack hmotions]
  exact (hsame.performAll_filter commands).1

/-! ### Points of strokes -/

/-- The points that a command inside a stroke adds to it. A move adds the position after it, and for
a rational spline a turn adds the position before it. -/
def marks (turtle : Turtle) (before : List Command) : Command → List Point
  | .forward distance => [turtle.place (before ++ [.forward distance])]
  | .turn _ => if turtle.live.kind = .nurbs then [turtle.place before] else []
  | .penDown | .penUp | .push | .pop | .ignore => []

/-- The points that commands inside a stroke add to it, one command after the other. -/
def trail (turtle : Turtle) (before : List Command) : List Command → List Point
  | [] => []
  | command :: rest => turtle.marks before command ++ turtle.trail (before ++ [command]) rest

theorem trail_concat (turtle : Turtle) (before commands : List Command) (command : Command) :
    turtle.trail before (commands ++ [command]) =
      turtle.trail before commands ++ turtle.marks (before ++ commands) command := by
  induction commands generalizing before with
  | nil => rw [List.nil_append, trail, trail, trail, List.append_nil, List.append_nil]; rfl
  | cons first rest ih =>
    rw [List.cons_append, trail, trail, ih, List.append_assoc, List.append_assoc,
      List.singleton_append]

end Turtle

namespace Stroke

variable (start : Turtle)

/-- The points of a stroke: the position at which it opens, and those of the commands inside it. -/
def points (stroke : Stroke) : List Point :=
  start.place stroke.before :: start.trail (stroke.before ++ [.penDown]) stroke.inside

/-- The curve of a stroke, if it is closed and has two points or more. -/
def curve? (stroke : Stroke) : Option Outline :=
  if stroke.closed = true ∧ 2 ≤ (stroke.points start).length then
    some {
      name := start.name ++ "-curve"
      kind := start.live.kind
      vertices := start.live.kind.flatten (stroke.points start)
      options := start.setup.options }
  else none

theorem curve?_of_open {stroke : Stroke} (h : stroke.closed = false) :
    stroke.curve? start = none := by
  rw [curve?, if_neg]
  rintro ⟨hclosed, -⟩
  rw [h] at hclosed
  cases hclosed

/-- Extending a stroke adds the points of the command. -/
theorem points_extend {stroke : Stroke} {commands : List Command} (hopen : stroke.closed = false)
    (hreach : stroke.before ++ .penDown :: stroke.inside = commands) (command : Command) :
    (stroke.extend command).points start =
      stroke.points start ++ start.marks commands command := by
  cases hlift : command.isPenUp with
  | true =>
    rw [extend_penUp hopen hlift, eq_penUp hlift]
    exact (List.append_nil _).symm
  | false =>
    rw [extend_of_not_isPenUp hopen hlift, points, points, Turtle.trail_concat, ← hreach,
      List.append_assoc, List.singleton_append, List.cons_append]

end Stroke

/-! ### Pen up and pen down -/

namespace Snapshot

/-- The pen is up, and there is nothing on the path that lifting it could finish. -/
structure Idle (snapshot : Snapshot) : Prop where
  penDown_eq : snapshot.penDown = false
  size_le : snapshot.path.size ≤ 1

theorem idle_initial (origin : Point) (kind : CurveKind) : (initial origin kind).Idle :=
  ⟨rfl, Nat.le_refl 1⟩

/-- Lifting the pen makes a snapshot idle, whatever was on the path. -/
theorem idle_penUp (snapshot : Snapshot) : (snapshot.perform .penUp).Idle := by
  rw [perform, liftPen_eq]
  refine ⟨rfl, ?_⟩
  by_cases hpath : 1 < snapshot.path.size
  · simp only [if_pos hpath]
    exact Nat.le_refl 1
  · simp only [if_neg hpath]
    exact Nat.le_of_not_lt hpath

/-- An idle snapshot remains idle until the pen is lowered. -/
theorem Idle.perform {snapshot : Snapshot} (h : snapshot.Idle) {command : Command}
    (hkeep : command.isPenDown = false) : (snapshot.perform command).Idle := by
  obtain ⟨hpen, hsize⟩ := h
  cases command with
  | penDown => cases hkeep
  | penUp => exact snapshot.idle_penUp
  | forward distance =>
    rw [Snapshot.perform, forward_eq, hpen]
    exact ⟨rfl, hsize⟩
  | turn angle =>
    rw [Snapshot.perform, turn_eq, hpen]
    exact ⟨rfl, hsize⟩
  | push | pop | ignore => exact ⟨hpen, hsize⟩

/-- Lowering the pen of an idle snapshot begins a path at the position. -/
theorem Idle.penDown {snapshot : Snapshot} (h : snapshot.Idle) :
    (snapshot.perform .penDown).penDown = true ∧
      (snapshot.perform .penDown).path.toList = [snapshot.position] := by
  rw [Snapshot.perform, lowerPen_eq, h.penDown_eq]
  exact ⟨rfl, rfl⟩

end Snapshot

namespace Turtle

theorem kind_after (turtle : Turtle) {commands : List Command}
    (hplain : ∀ command ∈ commands, command.isStack = false) :
    (turtle.after commands).live.kind = turtle.live.kind := by
  rw [turtle.after_of_not_isStack hplain]
  exact turtle.live.kind_performAll commands

theorem after_concat (turtle : Turtle) (commands : List Command) {command : Command}
    (hcommand : command.isStack = false) :
    turtle.after (commands ++ [command]) =
      { turtle.after commands with live := (turtle.after commands).live.perform command } := by
  rw [after_append, after_cons, after_nil, next_of_not_isStack _ hcommand]

/-- With the pen down, every command but its lifting keeps the pen down and adds its marks to the
path. -/
theorem path_after_concat (turtle : Turtle) {commands : List Command} {command : Command}
    (hplain : ∀ other ∈ commands ++ [command], other.isStack = false)
    (hkeep : command.isPenUp = false) (hpen : (turtle.after commands).live.penDown = true) :
    (turtle.after (commands ++ [command])).live.penDown = true ∧
      (turtle.after (commands ++ [command])).live.path.toList =
        (turtle.after commands).live.path.toList ++ turtle.marks commands command := by
  obtain ⟨hbefore, hlast⟩ := List.forall_mem_append.mp hplain
  have hcommand : command.isStack = false := hlast command (List.mem_singleton_self command)
  have hposition := turtle.position_after hbefore
  have hmoved := turtle.position_after hplain
  have hkind := turtle.kind_after hbefore
  rw [turtle.after_concat commands hcommand] at hmoved ⊢
  generalize (turtle.after commands).live = snapshot at hpen hposition hmoved hkind ⊢
  cases command with
  | penUp => cases hkeep
  | push | pop => cases hcommand
  | forward distance =>
    rw [Snapshot.perform, Snapshot.forward_eq, hpen] at hmoved ⊢
    refine ⟨rfl, ?_⟩
    rw [marks, ← hmoved]
    exact Array.toList_push
  | turn angle =>
    rw [Snapshot.perform, Snapshot.turn_eq, hpen, Bool.true_and, marks, ← hposition, ← hkind]
    refine ⟨rfl, ?_⟩
    cases hanchor : snapshot.kind with
    | nurbs => exact Array.toList_push
    | poly | bezier => exact (List.append_nil _).symm
  | penDown =>
    rw [Snapshot.perform, Snapshot.lowerPen_eq, hpen]
    exact ⟨rfl, (List.append_nil _).symm⟩
  | ignore => exact ⟨hpen, (List.append_nil _).symm⟩

theorem finished_of_not_isPenUp (turtle : Turtle) {command : Command}
    (hkeep : command.isPenUp = false) : turtle.finished command = none := by
  apply turtle.finished_of_ne_penUp
  rintro rfl
  cases hkeep

theorem finished_of_idle {turtle : Turtle} (hidle : turtle.live.Idle) (command : Command) :
    turtle.finished command = none := by
  cases hlift : command.isPenUp with
  | true => rw [eq_penUp hlift, finished_penUp, if_neg (Nat.not_lt.mpr hidle.size_le)]
  | false => exact turtle.finished_of_not_isPenUp hlift

end Turtle

/-! ### The run -/

/-- What a run shows of the strokes of its commands: it has finished the curves of the strokes;
while the pen is up, the turtle is idle, and while it is down, the path is the points of the open
stroke. -/
structure Turtle.Traces (start : Turtle) (commands : List Command) : Prop where
  outlines_eq : start.outlines commands = (strokes commands).filterMap (·.curve? start)
  idle : penRaised commands = true → (start.after commands).live.Idle
  path_eq : ∀ stroke ∈ strokes commands, stroke.closed = false →
    (start.after commands).live.penDown = true ∧
      (start.after commands).live.path.toList = stroke.points start

namespace Turtle

variable {start : Turtle} {commands : List Command}

/-- A command met with the pen up opens a stroke or changes nothing about strokes. -/
theorem Traces.concat_of_raised (h : start.Traces commands) {command : Command}
    (hplain : ∀ other ∈ commands ++ [command], other.isStack = false)
    (hraised : penRaised commands = true)
    (hclosed : ∀ stroke ∈ strokes commands, stroke.closed = true) :
    start.Traces (commands ++ [command]) := by
  obtain ⟨hbefore, hlast⟩ := List.forall_mem_append.mp hplain
  have hcommand : command.isStack = false := hlast command (List.mem_singleton_self command)
  have hidle := h.idle hraised
  have houtlines : start.outlines (commands ++ [command]) = start.outlines commands := by
    rw [outlines_concat, finished_of_idle hidle]
    exact List.append_nil _
  have hstrokes := strokes_concat_of_closed hraised hclosed command
  cases hlower : command.isPenDown with
  | true =>
    rw [hlower, if_pos rfl] at hstrokes
    refine ⟨?_, ?_, ?_⟩
    · rw [houtlines, hstrokes, List.filterMap_append, ← h.outlines_eq]
      exact (List.append_nil _).symm
    · intro hstill
      rw [penRaised_concat, hlower, eq_penDown hlower, hraised] at hstill
      cases hstill
    · intro stroke hstroke hopen
      rw [hstrokes] at hstroke
      obtain rfl := eq_last_of_open hclosed hstroke hopen
      obtain rfl := eq_penDown hlower
      obtain ⟨hpen, hpath⟩ := hidle.penDown
      rw [start.after_concat commands hcommand]
      refine ⟨hpen, hpath.trans ?_⟩
      rw [start.position_after hbefore]
      rfl
  | false =>
    rw [hlower, if_neg Bool.false_ne_true, List.append_nil] at hstrokes
    refine ⟨?_, ?_, ?_⟩
    · rw [houtlines, hstrokes, h.outlines_eq]
    · intro _
      rw [start.after_concat commands hcommand]
      exact hidle.perform hlower
    · intro stroke hstroke hopen
      rw [hstrokes] at hstroke
      rw [hclosed stroke hstroke] at hopen
      cases hopen

/-- The outline that a turtle finishes when it lifts its pen is the curve of the stroke that is
thereby closed. -/
theorem finished_penUp_eq_curve? {stroke : Stroke}
    (hplain : ∀ command ∈ commands, command.isStack = false)
    (hpath : (start.after commands).live.path.toList = stroke.points start) :
    (start.after commands).finished .penUp =
      Stroke.curve? start { stroke with closed := true } := by
  obtain ⟨hname, hsetup⟩ := start.name_setup_after commands
  have hsize : (start.after commands).live.path.size = (stroke.points start).length := by
    rw [← hpath, Array.length_toList]
  have houtline : (start.after commands).outline (start.after commands).live.path =
      { name := start.name ++ "-curve"
        kind := start.live.kind
        vertices := start.live.kind.flatten (stroke.points start)
        options := start.setup.options } := by
    rw [outline, curveName, hname, hsetup, hpath, start.kind_after hplain]
  rw [finished_penUp, hsize, houtline, Stroke.curve?]
  by_cases hpoints : 1 < (stroke.points start).length
  · rw [if_pos hpoints, if_pos ⟨rfl, hpoints⟩]
    rfl
  · rw [if_neg hpoints, if_neg fun hcurve ↦ hpoints hcurve.2]

/-- A command met with the pen down extends the open stroke. -/
theorem Traces.concat_of_lowered (h : start.Traces commands) {command : Command}
    (hplain : ∀ other ∈ commands ++ [command], other.isStack = false)
    {earlier : List Stroke} {last : Stroke} (hlowered : penRaised commands = false)
    (hstrokes : strokes commands = earlier ++ [last])
    (hclosed : ∀ stroke ∈ earlier, stroke.closed = true) (hopen : last.closed = false)
    (hreach : last.before ++ .penDown :: last.inside = commands) :
    start.Traces (commands ++ [command]) := by
  obtain ⟨hbefore, hend⟩ := List.forall_mem_append.mp hplain
  have hcommand : command.isStack = false := hend command (List.mem_singleton_self command)
  have hlast : last ∈ strokes commands := by
    rw [hstrokes]
    exact List.mem_append_right earlier (List.mem_singleton_self last)
  obtain ⟨hpen, hpath⟩ := h.path_eq last hlast hopen
  have houtlines : start.outlines commands = earlier.filterMap (·.curve? start) := by
    rw [h.outlines_eq, hstrokes, List.filterMap_append, List.filterMap_cons_none
      (Stroke.curve?_of_open start hopen), List.filterMap_nil, List.append_nil]
  have hafter := strokes_concat_of_open hlowered hstrokes hclosed command
  cases hlift : command.isPenUp with
  | true =>
    obtain rfl := eq_penUp hlift
    rw [Stroke.extend_penUp hopen hlift] at hafter
    refine ⟨?_, ?_, ?_⟩
    · rw [outlines_concat, houtlines, hafter, List.filterMap_append,
        finished_penUp_eq_curve? hbefore hpath]
      cases hcurve : Stroke.curve? start { last with closed := true } with
      | none => rw [List.filterMap_cons_none hcurve]; rfl
      | some outline => rw [List.filterMap_cons_some hcurve]; rfl
    · intro _
      rw [start.after_concat commands hcommand]
      exact Snapshot.idle_penUp _
    · intro stroke hstroke hstill
      rw [hafter] at hstroke
      rw [eq_last_of_open hclosed hstroke hstill] at hstill
      cases hstill
  | false =>
    have hextended : (last.extend command).closed = false := by
      rw [Stroke.extend_of_not_isPenUp hopen hlift]
      exact hopen
    refine ⟨?_, ?_, ?_⟩
    · rw [outlines_concat, houtlines, hafter, List.filterMap_append,
        finished_of_not_isPenUp _ hlift,
        List.filterMap_cons_none (Stroke.curve?_of_open start hextended)]
      rfl
    · intro hstill
      rw [penRaised_concat, hlift, hlowered] at hstill
      cases hstill
    · intro stroke hstroke hstill
      rw [hafter] at hstroke
      rw [eq_last_of_open hclosed hstroke hstill, Stroke.points_extend start hopen hreach, ← hpath]
      exact start.path_after_concat hplain hlift hpen

/-- One step of a run. -/
theorem Traces.concat (h : start.Traces commands) {command : Command}
    (hplain : ∀ other ∈ commands ++ [command], other.isStack = false) :
    start.Traces (commands ++ [command]) := by
  rcases strokes_cases commands with
      ⟨hraised, hclosed⟩ | ⟨hlowered, earlier, last, hstrokes, hclosed, hopen, hreach⟩
  · exact h.concat_of_raised hplain hraised hclosed
  · exact h.concat_of_lowered hplain hlowered hstrokes hclosed hopen hreach

/-- A run that does not use the stack shows the strokes of its commands.

Assumes: the turtle is idle in the beginning. -/
theorem traces (hidle : start.live.Idle)
    (hplain : ∀ command ∈ commands, command.isStack = false) : start.Traces commands := by
  induction commands using List.reverseRecOn with
  | nil =>
    refine ⟨rfl, fun _ ↦ hidle, ?_⟩
    intro stroke hstroke
    cases hstroke
  | append_singleton commands command ih =>
    obtain ⟨hbefore, -⟩ := List.forall_mem_append.mp hplain
    exact (ih hbefore).concat hplain

/-- Nothing is finished by a command that does not lift the pen, or lifts it when no stroke is open
or when the open one has one point. -/
theorem Traces.finished_eq_none (h : start.Traces commands) {command : Command}
    (hshort : command = .penUp → ∀ stroke ∈ strokes commands, stroke.closed = false →
      (stroke.points start).length < 2) :
    (start.after commands).finished command = none := by
  rcases strokes_cases commands with ⟨hraised, -⟩ | ⟨-, earlier, last, hstrokes, -, hopen, -⟩
  · exact finished_of_idle (h.idle hraised) command
  · cases hlift : command.isPenUp with
    | false => exact finished_of_not_isPenUp _ hlift
    | true =>
      have hlast : last ∈ strokes commands := by
        rw [hstrokes]
        exact List.mem_append_right earlier (List.mem_singleton_self last)
      have hpoints := hshort (eq_penUp hlift) last hlast hopen
      obtain ⟨-, hpath⟩ := h.path_eq last hlast hopen
      rw [eq_penUp hlift, finished_penUp, ← Array.length_toList, hpath, if_neg (by omega)]

end Turtle

/-! ### Plotters -/

section

variable {σ η : Type} [Canvas σ η]

/-- A plotter that finishes nothing leaves no event and draws nothing. -/
theorem Plotter.attempt_of_finished_eq_none (plotter : Plotter σ η) {command : Command}
    (hcommand : command.isStack = false) (h : plotter.turtle.finished command = none) :
    plotter.attempt command =
      ⟨plotter.withTurtle (plotter.turtle.next command), .ok none, []⟩ := by
  obtain ⟨outline, hcarryOut⟩ := plotter.turtle.carryOut_of_not_isStack hcommand
  rw [Turtle.finished, hcarryOut] at h
  obtain rfl : outline = none := h
  rw [attempt_of_ok hcarryOut, Turtle.next_of_ok hcarryOut]
  rfl

/-- Lowering a pen that is down changes nothing. -/
theorem Plotter.attempt_penDown {plotter : Plotter σ η}
    (hpen : plotter.turtle.live.penDown = true) :
    plotter.attempt .penDown = ⟨plotter, .ok none, []⟩ := by
  have hlive : plotter.turtle.live.lowerPen = plotter.turtle.live := by
    rw [Snapshot.lowerPen, if_pos hpen]
  rw [attempt, Turtle.lowerPen, hlive]
  rfl

/-- The curves that a new turtle draws are those of the closed strokes with two points or more, in
the order in which the strokes are closed. The path in the end is the points of the open stroke, if
there is one. Lowering the pen inside a stroke is as good as nothing, and no curve is drawn by a
command that does not lift the pen, nor by one that lifts it outside of strokes or in a stroke of
one point.

Assumes: no command is a stack command. -/
theorem drawn_eq_strokes (name : String) (kind : CurveKind) (setup : Setup) (canvas : σ)
    {commands : List Command} (hplain : ∀ command ∈ commands, command.isStack = false) :
    let start := Turtle.initial name kind setup
    let plotter : Plotter σ η := { turtle := start, canvas := canvas }
    let drawn := plotter.drawAll ((strokes commands).filterMap (·.curve? start))
    (plotter.attemptAll commands).canvas = drawn.canvas ∧
      (plotter.attemptAll commands).handles = drawn.handles ∧
      ((strokes commands).Pairwise fun first second ↦
        first.closed = true ∧ first.reach <+: second.before) ∧
      (∀ stroke ∈ strokes commands, stroke.closed = false →
        (plotter.attemptAll commands).turtle.live.path.toList = stroke.points start) ∧
      (∀ first rest, commands = first ++ .penDown :: rest →
        (∃ stroke ∈ strokes first, stroke.closed = false) →
        plotter.attemptAll commands = plotter.attemptAll (first ++ rest)) ∧
      ∀ first command, first ++ [command] <+: commands →
        (command = .penUp → ∀ stroke ∈ strokes first, stroke.closed = false →
          (stroke.points start).length < 2) →
        let before := plotter.attemptAll first
        let attempt := before.attempt command
        attempt.result = .ok none ∧ attempt.events = [] ∧
          attempt.plotter.canvas = before.canvas ∧ attempt.plotter.handles = before.handles := by
  intro start plotter drawn
  have hidle : start.live.Idle := Snapshot.idle_initial setup.origin kind
  have htraces : ∀ first, first <+: commands → start.Traces first := fun first hfirst ↦
    Turtle.traces hidle fun command hcommand ↦ hplain command (hfirst.mem hcommand)
  have hrun := htraces commands List.prefix_rfl
  have hattempts : plotter.attemptAll commands = drawn.withTurtle (start.after commands) := by
    rw [plotter.attemptAll_eq, hrun.outlines_eq]
  refine ⟨by rw [hattempts]; rfl, by rw [hattempts]; rfl, (strokes_in_order commands).2, ?_, ?_, ?_⟩
  · intro stroke hstroke hopen
    rw [Plotter.turtle_attemptAll]
    exact (hrun.path_eq stroke hstroke hopen).2
  · rintro first rest rfl ⟨stroke, hstroke, hopen⟩
    have hpen : (plotter.attemptAll first).turtle.live.penDown = true := by
      rw [Plotter.turtle_attemptAll]
      exact ((htraces first (List.prefix_append first _)).path_eq stroke hstroke hopen).1
    rw [Plotter.attemptAll_append, Plotter.attemptAll_append]
    show ((plotter.attemptAll first).attempt .penDown).plotter.attemptAll rest = _
    rw [Plotter.attempt_penDown hpen]
  · intro first command hfirst hshort before attempt
    have hcommand : command.isStack = false := hplain command (hfirst.mem (by simp))
    have hfirstRun := htraces first ((List.prefix_append first [command]).trans hfirst)
    have hnone : before.turtle.finished command = none := by
      rw [Plotter.turtle_attemptAll]
      exact hfirstRun.finished_eq_none hshort
    have hattempt : attempt = _ := before.attempt_of_finished_eq_none hcommand hnone
    rw [hattempt]
    exact ⟨rfl, rfl, rfl, rfl⟩

end

/-- A stroke with a corner in it, one of a single point and one that stays open: the rational spline
through the first has its corner twice, the second is not drawn, and the third is the path. -/
theorem corner_is_repeated :
    let start := Turtle.initial "pen" .nurbs {}
    let plotter : Plotter Sketchbook Nat := { turtle := start, canvas := {} }
    let first : List Command :=
      [.forward 1, .penUp, .penDown, .forward 1, .penDown, .turn 1, .forward 1, .penUp]
    let commands : List Command := first ++ [.penDown, .penUp, .penDown, .forward 2]
    (plotter.attemptAll commands).canvas.outlines.toList.map (·.vertices) =
        [start.live.kind.flatten [start.place [.forward 1], start.place [.forward 1, .forward 1],
          start.place [.forward 1, .forward 1],
          start.place [.forward 1, .forward 1, .turn 1, .forward 1]]] ∧
      (plotter.attemptAll commands).turtle.live.path.toList =
        [start.place (first ++ [.penDown, .penUp]), start.place commands] := by
  intro start plotter first commands
  have hplain : ∀ command ∈ commands, command.isStack = false := by decide
  obtain ⟨hcanvas, -, -, hpath, -⟩ := drawn_eq_strokes "pen" .nurbs {} ({} : Sketchbook) hplain
  have hmem : ⟨first ++ [.penDown, .penUp], [.forward 2], false⟩ ∈ strokes commands := by decide
  have hlive := hpath _ hmem rfl
  constructor
  · rw [hcanvas]
    rfl
  · rw [hlive]
    rfl

end Lindenmayer
