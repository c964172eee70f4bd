import Lindenmayer.Turtle.Plotter

/-!
# The course of a turtle without its canvas

The canvas of a plotter never tells the turtle anything. This module gives the turtle's own account
of a command and shows that a plotter does nothing else but follow it and draw what it finishes.

`Turtle.carryOut` is the account: the turtle after a command, with the outline of the curve that the
command finished, or the reason for its refusal. A refused command changes nothing
(`Turtle.carryOut_of_refused`). `Plotter.attempt_of_ok` and `Plotter.attempt_of_error` say that a
plotter follows the account. Along a list of commands, `Turtle.after`
is where the turtle ends and `Turtle.outlines` what it finishes on the way; `Plotter.attemptAll_eq`
says that the plotter ends with this turtle and has drawn these outlines in this order, and
`Plotter.events_eq` that it has left one event for each of them.

A command that is not a stack command changes the live snapshot only, by `Snapshot.perform`
(`Turtle.carryOut_of_not_isStack`). Any other snapshot that a turtle ever has was its live one
before, so what `Snapshot.perform` keeps holds of all of them (`Turtle.forall_mem_snapshots_after`).
-/

set_option autoImplicit false

namespace Lindenmayer

/-- Whether a command saves or restores snapshots. -/
def Command.isStack : Command → Bool
  | push | pop => true
  | forward _ | turn _ | penDown | penUp | ignore => false

/-! ### Snapshots -/

namespace Snapshot

/-- The snapshot after a command. Stack commands do not change a snapshot, they exchange it. -/
def perform [Trigonometry] (snapshot : Snapshot) : Command → Snapshot
  | .forward distance => snapshot.forward distance
  | .turn angle => snapshot.turn angle
  | .penDown => snapshot.lowerPen
  | .penUp => snapshot.liftPen.1
  | .push | .pop | .ignore => snapshot

/-- Moving changes the position, and with the pen down extends the path by it. -/
theorem forward_eq [Trigonometry] (snapshot : Snapshot) (distance : Float32) :
    snapshot.forward distance =
      let position := snapshot.position + snapshot.direction.scale distance
      { snapshot with
        position := position
        path := if snapshot.penDown then snapshot.path.push position else snapshot.path } := by
  cases hpen : snapshot.penDown <;> simp [forward, record, hpen]

/-- Turning changes the heading, and with the pen down a kind that anchors its corners extends the
path by the position. -/
theorem turn_eq (snapshot : Snapshot) (angle : Float32) :
    snapshot.turn angle =
      { snapshot with
        heading := wrapHeading (snapshot.heading + angle)
        path := if snapshot.penDown && snapshot.kind.anchorsCorners then
          snapshot.path.push snapshot.position else snapshot.path } := by
  cases hanchored : snapshot.penDown && snapshot.kind.anchorsCorners <;>
    simp [turn, record, hanchored]

/-- A pen that was up begins a path at the position. -/
theorem lowerPen_eq (snapshot : Snapshot) :
    snapshot.lowerPen =
      { snapshot with
        penDown := true
        path := if snapshot.penDown then snapshot.path else #[snapshot.position] } := by
  obtain ⟨position, heading, penDown, path, kind⟩ := snapshot
  cases penDown <;> rfl

/-- A path of two or more points is finished when the pen is lifted, and a new one begins. -/
theorem liftPen_eq (snapshot : Snapshot) :
    snapshot.liftPen =
      ({ snapshot with
          penDown := false
          path := if 1 < snapshot.path.size then #[snapshot.position] else snapshot.path },
        if 1 < snapshot.path.size then some snapshot.path else none) := by
  by_cases hpath : 1 < snapshot.path.size <;> simp [liftPen, restartPath, hpath]

/-- A turtle records for one kind of curve all its life. -/
@[simp] theorem kind_perform [Trigonometry] (snapshot : Snapshot) (command : Command) :
    (snapshot.perform command).kind = snapshot.kind := by
  cases command with
  | forward distance => rw [perform, forward_eq]
  | turn angle => rw [perform, turn_eq]
  | penDown => rw [perform, lowerPen_eq]
  | penUp => rw [perform, liftPen_eq]
  | push | pop | ignore => rfl

end Snapshot

/-! ### One command -/

namespace Turtle

variable [Trigonometry]

/-- What a command does to a turtle: the turtle after it, with the outline of the curve that it
finished or the reason for its refusal. -/
def carryOut (turtle : Turtle) : Command → Turtle × Except StackError (Option Outline)
  | .forward distance => (turtle.forward distance, .ok none)
  | .turn angle => (turtle.turn angle, .ok none)
  | .penDown => (turtle.lowerPen, .ok none)
  | .penUp => (turtle.liftPen.1, .ok turtle.liftPen.2)
  | .push => (turtle.push.1, turtle.push.2.map fun _ ↦ none)
  | .pop => (turtle.pop.1, turtle.pop.2.map fun _ ↦ none)
  | .ignore => (turtle, .ok none)

/-- The turtle after a command. -/
def next (turtle : Turtle) (command : Command) : Turtle := (turtle.carryOut command).1

/-- The outline of the curve that a command finishes, if any. -/
def finished (turtle : Turtle) (command : Command) : Option Outline :=
  match (turtle.carryOut command).2 with
  | .ok outline => outline
  | .error _ => none

/-- Pushing is refused exactly when the turtle has its largest depth already. -/
theorem carryOut_push (turtle : Turtle) :
    turtle.carryOut .push =
      if turtle.setup.maxDepth.toNat ≤ turtle.depth then
        (turtle, .error (.overflow turtle.setup.maxDepth.toNat))
      else ({ turtle with saved := turtle.live :: turtle.saved }, .ok none) := by
  rw [carryOut, push]
  split <;> rfl

/-- Popping puts the snapshot saved last in the place of the live one. -/
theorem carryOut_pop {turtle : Turtle} {live : Snapshot} {saved : List Snapshot}
    (h : turtle.saved = live :: saved) :
    turtle.carryOut .pop = ({ turtle with live := live, saved := saved }, .ok none) := by
  simp only [carryOut, pop, h, Except.map]

theorem carryOut_pop_of_nil {turtle : Turtle} (h : turtle.saved = []) :
    turtle.carryOut .pop = (turtle, .error .empty) := by
  simp only [carryOut, pop, h, Except.map]

/-- A command that is not a stack command is never refused and changes the live snapshot only. -/
theorem carryOut_of_not_isStack (turtle : Turtle) {command : Command}
    (h : command.isStack = false) :
    ∃ outline, turtle.carryOut command =
      ({ turtle with live := turtle.live.perform command }, .ok outline) := by
  cases command with
  | push | pop => cases h
  | forward _ | turn _ | penDown | penUp | ignore => exact ⟨_, rfl⟩

/-- A refused command changes nothing. -/
theorem carryOut_of_refused {turtle : Turtle} {command : Command} {error : StackError}
    (h : (turtle.carryOut command).2 = .error error) :
    turtle.carryOut command = (turtle, .error error) := by
  cases command with
  | forward _ | turn _ | penDown | penUp | ignore => cases h
  | push =>
    rw [carryOut_push] at h ⊢
    split at h
    · rw [if_pos ‹_›, ← h]
    · cases h
  | pop =>
    cases hsaved : turtle.saved with
    | nil =>
      rw [carryOut_pop_of_nil hsaved] at h ⊢
      rw [← h]
    | cons live saved =>
      rw [carryOut_pop hsaved] at h
      cases h

theorem next_of_ok {turtle after : Turtle} {command : Command} {outline : Option Outline}
    (h : turtle.carryOut command = (after, .ok outline)) : turtle.next command = after := by
  rw [next, h]

theorem next_of_error {turtle : Turtle} {command : Command} {error : StackError}
    (h : (turtle.carryOut command).2 = .error error) : turtle.next command = turtle := by
  rw [next, carryOut_of_refused h]

/-- No command changes the name or the setup of a turtle. -/
theorem name_setup_next (turtle : Turtle) (command : Command) :
    (turtle.next command).name = turtle.name ∧ (turtle.next command).setup = turtle.setup := by
  cases command with
  | forward _ | turn _ | penDown | penUp | ignore => exact ⟨rfl, rfl⟩
  | push =>
    rw [next, carryOut_push]
    split <;> exact ⟨rfl, rfl⟩
  | pop =>
    cases hsaved : turtle.saved with
    | nil => rw [next, carryOut_pop_of_nil hsaved]; exact ⟨rfl, rfl⟩
    | cons live saved => rw [next, carryOut_pop hsaved]; exact ⟨rfl, rfl⟩

theorem next_of_not_isStack (turtle : Turtle) {command : Command} (h : command.isStack = false) :
    turtle.next command = { turtle with live := turtle.live.perform command } := by
  obtain ⟨outline, hcarryOut⟩ := turtle.carryOut_of_not_isStack h
  exact next_of_ok hcarryOut

/-- Only lifting the pen finishes a curve. -/
theorem finished_of_ne_penUp (turtle : Turtle) {command : Command} (h : command ≠ .penUp) :
    turtle.finished command = none := by
  cases command with
  | penUp => exact absurd rfl h
  | forward _ | turn _ | penDown | ignore => rfl
  | push =>
    rw [finished, carryOut_push]
    by_cases hfull : turtle.setup.maxDepth.toNat ≤ turtle.depth
    · rw [if_pos hfull]
    · rw [if_neg hfull]
  | pop =>
    cases hsaved : turtle.saved with
    | nil => rw [finished, carryOut_pop_of_nil hsaved]
    | cons live saved => rw [finished, carryOut_pop hsaved]

/-- Lifting the pen finishes the path if it has two points or more. -/
theorem finished_penUp (turtle : Turtle) :
    turtle.finished .penUp =
      if 1 < turtle.live.path.size then some (turtle.outline turtle.live.path) else none := by
  show turtle.liftPen.2 = _
  rw [liftPen, Snapshot.liftPen_eq]
  by_cases hpath : 1 < turtle.live.path.size
  · simp only [if_pos hpath]
    rfl
  · simp only [if_neg hpath]
    rfl

/-! ### The snapshots of a turtle -/

/-- All snapshots of a turtle, the live one first. -/
def snapshots (turtle : Turtle) : List Snapshot := turtle.live :: turtle.saved

/-- A command brings in at most one new snapshot: what it makes of the live one. -/
theorem mem_snapshots_next {turtle : Turtle} {command : Command} {snapshot : Snapshot}
    (h : snapshot ∈ (turtle.next command).snapshots) :
    snapshot ∈ turtle.snapshots ∨ snapshot = turtle.live.perform command := by
  by_cases hstack : command.isStack = true
  · refine .inl ?_
    cases command with
    | forward _ | turn _ | penDown | penUp | ignore => cases hstack
    | push =>
      rw [next, carryOut_push] at h
      by_cases hfull : turtle.setup.maxDepth.toNat ≤ turtle.depth
      · rwa [if_pos hfull] at h
      · rw [if_neg hfull] at h
        rcases List.mem_cons.mp h with rfl | hsaved
        · exact List.mem_cons_self
        · exact hsaved
    | pop =>
      cases hsaved : turtle.saved with
      | nil => rwa [next, carryOut_pop_of_nil hsaved] at h
      | cons live saved =>
        rw [next_of_ok (carryOut_pop hsaved)] at h
        rw [snapshots, hsaved]
        exact List.mem_cons_of_mem _ h
  · rw [turtle.next_of_not_isStack (eq_false_of_ne_true hstack)] at h
    rcases List.mem_cons.mp h with rfl | hsaved
    · exact .inr rfl
    · exact .inl (List.mem_cons_of_mem _ hsaved)

/-- What holds of all snapshots of a turtle and is kept by a command holds of all snapshots after
it. -/
theorem forall_mem_snapshots_next {property : Snapshot → Prop} {turtle : Turtle} {command : Command}
    (hstart : ∀ snapshot ∈ turtle.snapshots, property snapshot)
    (hstep : ∀ snapshot, property snapshot → property (snapshot.perform command)) :
    ∀ snapshot ∈ (turtle.next command).snapshots, property snapshot := by
  intro snapshot hsnapshot
  rcases mem_snapshots_next hsnapshot with hold | rfl
  · exact hstart snapshot hold
  · exact hstep _ (hstart _ List.mem_cons_self)

end Turtle

namespace Plotter

variable {σ η : Type} [Trigonometry] [Canvas σ η]

/-- Draws an outline if there is one. -/
def record (plotter : Plotter σ η) : Option Outline → Lifted σ η
  | none => ⟨plotter, none, []⟩
  | some outline => plotter.draw outline

omit [Trigonometry] in
@[simp] theorem turtle_record (plotter : Plotter σ η) (outline : Option Outline) :
    (plotter.record outline).plotter.turtle = plotter.turtle := by
  cases outline <;> rfl

omit [Trigonometry] in
theorem settle_of_ok {plotter : Plotter σ η} {operation : Turtle × Except StackError Unit}
    {outline : Option Outline} (h : operation.2.map (fun _ ↦ none) = .ok outline) :
    plotter.settle operation =
      let lifted := (plotter.withTurtle operation.1).record outline
      ⟨lifted.plotter, .ok lifted.handle, lifted.events⟩ := by
  obtain ⟨turtle, error | _⟩ := operation
  · cases h
  · cases h
    rfl

/-- A plotter follows the turtle's account of a command and draws the curve that it finishes. -/
theorem attempt_of_ok {plotter : Plotter σ η} {command : Command} {turtle : Turtle}
    {outline : Option Outline} (h : plotter.turtle.carryOut command = (turtle, .ok outline)) :
    plotter.attempt command =
      let lifted := (plotter.withTurtle turtle).record outline
      ⟨lifted.plotter, .ok lifted.handle, lifted.events⟩ := by
  cases command with
  | forward _ | turn _ | penDown | ignore =>
    cases h
    rfl
  | penUp =>
    obtain ⟨rfl, houtline⟩ := Prod.mk.inj h
    obtain rfl := Except.ok.inj houtline
    rw [attempt, liftPen]
    obtain ⟨lifted, outline⟩ := plotter.turtle.liftPen
    cases outline <;> rfl
  | push | pop =>
    obtain ⟨rfl, hresult⟩ := Prod.mk.inj h
    exact settle_of_ok hresult

/-- A plotter refuses what the turtle refuses. -/
theorem attempt_of_error {plotter : Plotter σ η} {command : Command} {error : StackError}
    (h : (plotter.turtle.carryOut command).2 = .error error) :
    plotter.attempt command = ⟨plotter, .error error, []⟩ := by
  refine attempt_of_refused ?_
  cases command with
  | forward _ | turn _ | penDown | penUp | ignore => cases h
  | push | pop => exact congrArg (Except.map fun _ ↦ none) (eq_error_of_map h)

/-- After a command the plotter has the turtle that the command leaves and has drawn the curve that
it finishes. -/
theorem attempt_plotter (plotter : Plotter σ η) (command : Command) :
    (plotter.attempt command).plotter =
      ((plotter.withTurtle (plotter.turtle.next command)).record
        (plotter.turtle.finished command)).plotter := by
  cases h : (plotter.turtle.carryOut command).2 with
  | error error =>
    rw [attempt_of_error h, Turtle.next_of_error h, Turtle.finished, h]
    rfl
  | ok outline =>
    rw [attempt_of_ok (Prod.ext rfl h), Turtle.finished, h]
    rfl

@[simp] theorem turtle_attempt (plotter : Plotter σ η) (command : Command) :
    (plotter.attempt command).plotter.turtle = plotter.turtle.next command := by
  rw [attempt_plotter, turtle_record]
  rfl

end Plotter

/-! ### A list of commands -/

section

variable [Trigonometry]

/-- The snapshot after a list of commands, stack commands left out. -/
def Snapshot.performAll (snapshot : Snapshot) (commands : List Command) : Snapshot :=
  commands.foldl perform snapshot

@[simp] theorem Snapshot.kind_performAll (snapshot : Snapshot) (commands : List Command) :
    (snapshot.performAll commands).kind = snapshot.kind := by
  induction commands generalizing snapshot with
  | nil => rfl
  | cons command commands ih => exact (ih _).trans (snapshot.kind_perform command)

namespace Turtle

/-- The turtle after a list of commands of which those that are refused change nothing. -/
def after (turtle : Turtle) (commands : List Command) : Turtle := commands.foldl next turtle

/-- The outlines of the curves that a list of commands finishes, first to last. -/
def outlines (turtle : Turtle) : List Command → List Outline
  | [] => []
  | command :: commands =>
    (turtle.finished command).toList ++ (turtle.next command).outlines commands

@[simp] theorem after_nil (turtle : Turtle) : turtle.after [] = turtle := rfl

@[simp] theorem after_cons (turtle : Turtle) (command : Command) (commands : List Command) :
    turtle.after (command :: commands) = (turtle.next command).after commands := rfl

@[simp] theorem after_append (turtle : Turtle) (first second : List Command) :
    turtle.after (first ++ second) = (turtle.after first).after second :=
  List.foldl_append

/-- A turtle keeps its name and its setup all its life. -/
theorem name_setup_after (turtle : Turtle) (commands : List Command) :
    (turtle.after commands).name = turtle.name ∧
      (turtle.after commands).setup = turtle.setup := by
  induction commands generalizing turtle with
  | nil => exact ⟨rfl, rfl⟩
  | cons command commands ih =>
    obtain ⟨hname, hsetup⟩ := turtle.name_setup_next command
    obtain ⟨hnameRest, hsetupRest⟩ := ih (turtle.next command)
    exact ⟨hnameRest.trans hname, hsetupRest.trans hsetup⟩

/-- Without stack commands a turtle changes its live snapshot only. -/
theorem after_of_not_isStack (turtle : Turtle) {commands : List Command}
    (h : ∀ command ∈ commands, command.isStack = false) :
    turtle.after commands = { turtle with live := turtle.live.performAll commands } := by
  induction commands generalizing turtle with
  | nil => rfl
  | cons command commands ih =>
    obtain ⟨hcommand, hrest⟩ := List.forall_mem_cons.mp h
    rw [after_cons, turtle.next_of_not_isStack hcommand, ih _ hrest]
    rfl

theorem outlines_append (turtle : Turtle) (first second : List Command) :
    turtle.outlines (first ++ second) =
      turtle.outlines first ++ (turtle.after first).outlines second := by
  induction first generalizing turtle with
  | nil => rfl
  | cons command first ih =>
    rw [List.cons_append, outlines, ih, outlines, List.append_assoc, after_cons]

theorem outlines_concat (turtle : Turtle) (commands : List Command) (command : Command) :
    turtle.outlines (commands ++ [command]) =
      turtle.outlines commands ++ ((turtle.after commands).finished command).toList := by
  rw [outlines_append, outlines, outlines, List.append_nil]

/-- What holds of all snapshots of a turtle, and is kept by the commands of a list, holds of all
snapshots in the end. -/
theorem forall_mem_snapshots_after {property : Snapshot → Prop} {turtle : Turtle}
    {commands : List Command} (hstart : ∀ snapshot ∈ turtle.snapshots, property snapshot)
    (hstep : ∀ command ∈ commands, ∀ snapshot, property snapshot →
      property (snapshot.perform command)) :
    ∀ snapshot ∈ (turtle.after commands).snapshots, property snapshot := by
  induction commands generalizing turtle with
  | nil => exact hstart
  | cons command commands ih =>
    obtain ⟨hcommand, hrest⟩ := List.forall_mem_cons.mp hstep
    exact ih (forall_mem_snapshots_next hstart hcommand) hrest

end Turtle

namespace Plotter

variable {σ η : Type} [Canvas σ η]

theorem attemptAll_append (plotter : Plotter σ η) (first second : List Command) :
    plotter.attemptAll (first ++ second) = (plotter.attemptAll first).attemptAll second :=
  List.foldl_append

/-- Draws outlines one after the other. -/
def drawAll (plotter : Plotter σ η) (outlines : List Outline) : Plotter σ η :=
  outlines.foldl (fun plotter outline ↦ (plotter.draw outline).plotter) plotter

omit [Trigonometry] in
/-- Drawing does not depend on the turtle, and leaves it alone. -/
theorem drawAll_withTurtle (plotter : Plotter σ η) (turtle : Turtle) (outlines : List Outline) :
    (plotter.withTurtle turtle).drawAll outlines =
      (plotter.drawAll outlines).withTurtle turtle := by
  induction outlines generalizing plotter with
  | nil => rfl
  | cons outline outlines ih => exact ih (plotter.draw outline).plotter

omit [Trigonometry] in
theorem record_plotter_eq_drawAll (plotter : Plotter σ η) (outline : Option Outline) :
    (plotter.record outline).plotter = plotter.drawAll outline.toList := by
  cases outline <;> rfl

omit [Trigonometry] in
theorem drawAll_append (plotter : Plotter σ η) (first second : List Outline) :
    plotter.drawAll (first ++ second) = (plotter.drawAll first).drawAll second :=
  List.foldl_append

/-- A plotter ends with the turtle that the commands lead to, and has drawn the outlines that they
finish, in order. -/
theorem attemptAll_eq (plotter : Plotter σ η) (commands : List Command) :
    plotter.attemptAll commands =
      (plotter.drawAll (plotter.turtle.outlines commands)).withTurtle
        (plotter.turtle.after commands) := by
  induction commands generalizing plotter with
  | nil => rfl
  | cons command commands ih =>
    show (plotter.attempt command).plotter.attemptAll commands = _
    rw [ih, turtle_attempt, attempt_plotter, record_plotter_eq_drawAll, ← drawAll_append,
      drawAll_withTurtle, Turtle.outlines, Turtle.after_cons]
    rfl

@[simp] theorem turtle_attemptAll (plotter : Plotter σ η) (commands : List Command) :
    (plotter.attemptAll commands).turtle = plotter.turtle.after commands := by
  rw [attemptAll_eq]
  rfl

omit [Trigonometry] in
/-- Every outline that is drawn adds one handle. -/
theorem size_handles_drawAll (plotter : Plotter σ η) (outlines : List Outline) :
    (plotter.drawAll outlines).handles.size = plotter.handles.size + outlines.length := by
  induction outlines generalizing plotter with
  | nil => rfl
  | cons outline outlines ih =>
    have hdraw : (plotter.draw outline).plotter.handles.size = plotter.handles.size + 1 :=
      Array.size_push _
    refine (ih (plotter.draw outline).plotter).trans ?_
    rw [hdraw, List.length_cons, Nat.add_right_comm, Nat.add_assoc]

theorem size_handles_attemptAll (plotter : Plotter σ η) (commands : List Command) :
    (plotter.attemptAll commands).handles.size =
      plotter.handles.size + (plotter.turtle.outlines commands).length := by
  rw [attemptAll_eq]
  exact plotter.size_handles_drawAll _

/-! ### The events of commands -/

/-- The events that a list of commands leaves, first to last. -/
def events (plotter : Plotter σ η) : List Command → List Event
  | [] => []
  | command :: commands =>
    (plotter.attempt command).events ++ (plotter.attempt command).plotter.events commands

/-- A command leaves one event for the curve that it finishes, and no other. -/
theorem events_attempt (plotter : Plotter σ η) (command : Command) :
    (plotter.attempt command).events =
      (plotter.turtle.finished command).toList.map fun outline ↦
        .created plotter.turtle.name outline.pointCount outline.kind := by
  cases h : (plotter.turtle.carryOut command).2 with
  | error error =>
    rw [attempt_of_error h, Turtle.finished, h]
    rfl
  | ok outline =>
    rw [attempt_of_ok (Prod.ext rfl h), Turtle.finished, h,
      ← (plotter.turtle.name_setup_next command).1]
    cases outline with
    | none => rfl
    | some outline => rfl

/-- The events of a list of commands are those of the curves that the turtle finishes. -/
theorem events_eq (plotter : Plotter σ η) (commands : List Command) :
    plotter.events commands =
      (plotter.turtle.outlines commands).map fun outline ↦
        .created plotter.turtle.name outline.pointCount outline.kind := by
  induction commands generalizing plotter with
  | nil => rfl
  | cons command commands ih =>
    rw [events, ih, events_attempt, turtle_attempt, (plotter.turtle.name_setup_next command).1,
      Turtle.outlines, List.map_append]

end Plotter

end

end Lindenmayer
