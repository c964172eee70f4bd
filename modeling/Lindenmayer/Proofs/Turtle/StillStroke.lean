import Lindenmayer.Proofs.Turtle.CurveAccount
import Lindenmayer.Proofs.Turtle.DrawnCurves

/-!
# Strokes without a move

What a turtle does on a branch is lost when it returns from it, so a stroke is shaped only by the
commands that are given at the depth where it began. `Turtle.atLevel` picks them out of a list, and
`Turtle.at?_after` says that they alone decide about the snapshot of that depth, as long as the
turtle does not return to before it.

If none of them moves the turtle or lifts the pen, all that can be recorded is the point where the
pen was set down, once more for each turn (`Snapshot.path_performAll_of_still`). A kind that does
not anchor its corners does not even do that, so that nothing is drawn. A kind that anchors them
draws a curve after a single turn, all of whose points are equal: `Plotter.liftPen_without_move`.
-/

set_option autoImplicit false

namespace Lindenmayer

namespace Command

/-- Whether a command moves the turtle. -/
def isForward : Command → Bool
  | forward _ => true
  | turn _ | penDown | penUp | push | pop | ignore => false

/-- Whether a command turns the turtle. -/
def isTurn : Command → Bool
  | turn _ => true
  | forward _ | penDown | penUp | push | pop | ignore => false

end Command

/-! ### The snapshot of a level -/

namespace Turtle

/-- The snapshot that is live when the turtle has the depth `level`. -/
def at? (turtle : Turtle) (level : Nat) : Option Snapshot :=
  turtle.snapshots[turtle.depth - level]?

/-- The commands of a list that are given while the turtle has the depth `level`. -/
def atLevel (level : Nat) (turtle : Turtle) : List Command → List Command
  | [] => []
  | command :: commands =>
    if turtle.depth = level then command :: atLevel level (turtle.next command) commands
    else atLevel level (turtle.next command) commands

theorem at?_depth (turtle : Turtle) : turtle.at? turtle.depth = some turtle.live := by
  rw [at?, Nat.sub_self]
  rfl

/-- Below its own depth, a turtle has the snapshots that it has saved. -/
theorem at?_of_lt {turtle : Turtle} {level : Nat} (h : level < turtle.depth) :
    turtle.at? level = turtle.saved[turtle.depth - 1 - level]? := by
  obtain ⟨distance, hdistance⟩ : ∃ distance, turtle.depth - level = distance + 1 :=
    ⟨turtle.depth - level - 1, by omega⟩
  rw [at?, hdistance, show turtle.depth - 1 - level = distance by omega]
  rfl

/-- Without a stack command, only the snapshot at the depth of the turtle changes. -/
theorem at?_next_of_not_isStack (turtle : Turtle) {command : Command}
    (hplain : command.isStack = false) {level : Nat} (hlevel : level ≤ turtle.depth) :
    (turtle.next command).at? level =
      (turtle.at? level).map fun snapshot ↦
        if turtle.depth = level then snapshot.perform command else snapshot := by
  have hnext := turtle.next_of_not_isStack hplain
  have hdepth : (turtle.next command).depth = turtle.depth := by
    rw [hnext]
    rfl
  by_cases hown : turtle.depth = level
  · subst hown
    rw [at?_depth, ← hdepth, at?_depth, hnext]
    simp
  · have hlt : level < turtle.depth := Nat.lt_of_le_of_ne hlevel (Ne.symm hown)
    rw [at?_of_lt (hdepth ▸ hlt), at?_of_lt hlt, hdepth, hnext]
    simp [hown]

/-- A stack command leaves the snapshot of a level alone, unless it returns to before it. -/
theorem at?_next_of_isStack (turtle : Turtle) {command : Command} (hstack : command.isStack = true)
    {level : Nat} (hlevel : level ≤ turtle.depth) (hnext : level ≤ (turtle.next command).depth) :
    (turtle.next command).at? level = turtle.at? level := by
  cases command with
  | forward _ | turn _ | penDown | penUp | ignore => cases hstack
  | push =>
    have hpush := turtle.carryOut_push
    by_cases hfull : turtle.setup.maxDepth.toNat ≤ turtle.depth
    · rw [if_pos hfull] at hpush
      rw [next, hpush]
    · rw [if_neg hfull] at hpush
      rw [next_of_ok hpush, at?_of_lt (Nat.lt_succ_of_le hlevel)]
      rfl
  | pop =>
    cases hsaved : turtle.saved with
    | nil => rw [next, carryOut_pop_of_nil hsaved]
    | cons live saved =>
      have hdepth : turtle.depth = saved.length + 1 + 1 := by
        rw [depth, hsaved, List.length_cons]
      rw [next_of_ok (carryOut_pop hsaved)] at hnext ⊢
      have hlt : level < turtle.depth := by
        rw [hdepth]
        exact Nat.lt_succ_of_le hnext
      rw [at?_of_lt hlt, hsaved, hdepth]
      rfl

/-- A command changes the snapshot of a level only if it is given at that depth and is not for the
stack. -/
theorem at?_next (turtle : Turtle) (command : Command) {level : Nat} (hlevel : level ≤ turtle.depth)
    (hnext : level ≤ (turtle.next command).depth) :
    (turtle.next command).at? level =
      (turtle.at? level).map fun snapshot ↦
        if turtle.depth = level then snapshot.perform command else snapshot := by
  cases hstack : command.isStack with
  | false => exact turtle.at?_next_of_not_isStack hstack hlevel
  | true =>
    rw [turtle.at?_next_of_isStack hstack hlevel hnext]
    have hidle : ∀ snapshot : Snapshot, snapshot.perform command = snapshot := by
      cases command with
      | forward _ | turn _ | penDown | penUp | ignore => cases hstack
      | push | pop => exact fun _ ↦ rfl
    simp only [hidle, ite_self, Option.map_id']

/-- The commands that are given at a depth decide about the snapshot of that depth. Assumes: the
turtle never returns to before it. -/
theorem at?_after {turtle : Turtle} {commands : List Command} {level : Nat}
    (habove : ∀ part, part <+: commands → level ≤ (turtle.after part).depth) :
    (turtle.after commands).at? level =
      (turtle.at? level).map (·.performAll (turtle.atLevel level commands)) := by
  induction commands generalizing turtle with
  | nil => simp [atLevel, Snapshot.performAll]
  | cons command commands ih =>
    have hlevel : level ≤ turtle.depth := habove [] List.nil_prefix
    have hrest : ∀ part, part <+: commands → level ≤ ((turtle.next command).after part).depth :=
      fun part hpart ↦ habove (command :: part) (List.cons_prefix_cons.mpr ⟨rfl, hpart⟩)
    rw [after_cons, ih hrest, turtle.at?_next command hlevel (hrest [] List.nil_prefix),
      Option.map_map, atLevel]
    by_cases hown : turtle.depth = level
    · simp [hown, Snapshot.performAll, Function.comp_def]
    · simp [hown, Function.comp_def]

/-- The live snapshot of a turtle that is back at the depth of its start depends on the commands
given at that depth alone. -/
theorem live_after_of_depth_eq {turtle : Turtle} {commands : List Command}
    (habove : ∀ part, part <+: commands → turtle.depth ≤ (turtle.after part).depth)
    (hend : (turtle.after commands).depth = turtle.depth) :
    (turtle.after commands).live =
      turtle.live.performAll (turtle.atLevel turtle.depth commands) := by
  have hafter := at?_after habove
  rw [at?_depth, ← hend, at?_depth] at hafter
  rw [hend] at hafter
  exact Option.some.inj hafter

end Turtle

/-! ### Recording without moving -/

/-- A turtle with its pen down that does not move and keeps its pen down records its position once
for each turn, if it anchors its corners, and nothing else. -/
theorem Snapshot.path_performAll_of_still {snapshot : Snapshot} (hpen : snapshot.penDown = true)
    {commands : List Command}
    (hstill : ∀ command ∈ commands, command.isForward = false ∧ command.isPenUp = false) :
    (snapshot.performAll commands).path.toList =
      snapshot.path.toList ++
        List.replicate (if snapshot.kind.anchorsCorners then commands.countP (·.isTurn) else 0)
          snapshot.position := by
  induction commands generalizing snapshot with
  | nil => simp [performAll]
  | cons command commands ih =>
    obtain ⟨⟨hforward, hlift⟩, hrest⟩ := List.forall_mem_cons.mp hstill
    rw [performAll, List.foldl_cons, ← performAll]
    cases command with
    | forward _ => cases hforward
    | penUp => cases hlift
    | push | pop | ignore => exact ih hpen hrest
    | penDown =>
      have hsame : snapshot.perform .penDown = snapshot := by
        rw [perform, lowerPen, if_pos hpen]
      rw [hsame]
      exact ih hpen hrest
    | turn angle =>
      rw [perform, turn_eq, ih (by exact hpen) hrest]
      by_cases hanchors : snapshot.kind.anchorsCorners = true
      · simp [hpen, hanchors, Command.isTurn, List.replicate_succ]
      · simp [hanchors]

/-- The path of a stroke without a move: the point where the pen was set down, once more for each
turn at that depth if the turtle anchors its corners. -/
theorem Turtle.path_after_of_still {turtle : Turtle} {commands : List Command}
    (hraised : turtle.live.penDown = false)
    (habove : ∀ part, part <+: .penDown :: commands → turtle.depth ≤ (turtle.after part).depth)
    (hend : (turtle.after (.penDown :: commands)).depth = turtle.depth)
    (hstill : ∀ command ∈ turtle.atLevel turtle.depth (.penDown :: commands),
      command.isForward = false ∧ command.isPenUp = false) :
    (turtle.after (.penDown :: commands)).live.path.toList =
      List.replicate
        ((if turtle.live.kind.anchorsCorners then
          (turtle.atLevel turtle.depth (.penDown :: commands)).countP (·.isTurn) else 0) + 1)
        turtle.live.position := by
  have hlive := live_after_of_depth_eq habove hend
  rw [atLevel, if_pos rfl] at hlive hstill ⊢
  have hlowered : turtle.live.perform .penDown =
      { turtle.live with penDown := true, path := #[turtle.live.position] } := by
    rw [Snapshot.perform, Snapshot.lowerPen_eq, hraised, if_neg Bool.false_ne_true]
  rw [hlive, Snapshot.performAll, List.foldl_cons, ← Snapshot.performAll, hlowered,
    Snapshot.path_performAll_of_still rfl (List.forall_mem_cons.mp hstill).2]
  simp [Command.isTurn, List.replicate_succ]

/-! ### Lifting the pen -/

section

variable {σ η : Type} [Canvas σ η]

/-- What lifting the pen draws after a stroke without a move, for every turtle whose pen is up and
every kind of curve. A kind that does not anchor its corners draws nothing, and neither does one
that anchors them if the turtle has not turned either: there is no handle, no event, and nothing new
on the canvas. But if the corners are anchored, every turn has recorded the position once more. Then
a curve is drawn although the turtle has not moved, and all its points, one more than there were
turns, are equal.

Assumes: the pen is up before the stroke; the turtle does not return to before it and is back at its
depth in the end; no command that is given at that depth moves the turtle or lifts the pen. -/
theorem Plotter.liftPen_without_move (start : Plotter σ η) (commands : List Command)
    (hraised : start.turtle.live.penDown = false)
    (habove : ∀ part, part <+: .penDown :: commands →
      start.turtle.depth ≤ (start.attemptAll part).turtle.depth)
    (hend : (start.attemptAll (.penDown :: commands)).turtle.depth = start.turtle.depth)
    (hstill : ∀ command ∈ start.turtle.atLevel start.turtle.depth (.penDown :: commands),
      command.isForward = false ∧ command.isPenUp = false) :
    let last := start.attemptAll (.penDown :: commands)
    let lifted := last.attempt .penUp
    let turns :=
      (start.turtle.atLevel start.turtle.depth (.penDown :: commands)).countP (·.isTurn)
    (start.turtle.live.kind.anchorsCorners = false ∨ turns = 0 →
      lifted.result = .ok none ∧ lifted.plotter.canvas = last.canvas ∧
        lifted.plotter.handles = last.handles ∧ lifted.events = []) ∧
    (start.turtle.live.kind.anchorsCorners = true → turns ≠ 0 →
      ∃ outline, outline.points = List.replicate (turns + 1) start.turtle.live.position ∧
        lifted.result = .ok (some (Canvas.draw last.canvas outline).2) ∧
        lifted.plotter.canvas = (Canvas.draw last.canvas outline).1) := by
  intro last lifted turns
  simp only [turtle_attemptAll] at habove hend
  have hturtle : last.turtle = start.turtle.after (.penDown :: commands) :=
    start.turtle_attemptAll _
  have hpath := Turtle.path_after_of_still hraised habove hend hstill
  rw [← hturtle] at hpath
  have hsize := congrArg List.length hpath
  rw [Array.length_toList, List.length_replicate] at hsize
  have hfinished := last.turtle.finished_penUp
  constructor
  · intro hnone
    have hsingle : ¬ 1 < last.turtle.live.path.size := by
      rcases hnone with hplain | hzero
      · rw [hplain, if_neg Bool.false_ne_true] at hsize
        omega
      · rw [show List.countP _ _ = 0 from hzero, ite_self] at hsize
        omega
    rw [if_neg hsingle] at hfinished
    have hlifted : lifted = _ := last.attempt_of_finished_eq_none rfl hfinished
    rw [hlifted]
    exact ⟨rfl, rfl, rfl, rfl⟩
  · intro hanchors hturns
    rw [hanchors, if_pos rfl] at hsize hpath
    have hlong : 1 < last.turtle.live.path.size := by
      have hpositive := Nat.pos_of_ne_zero hturns
      omega
    rw [if_pos hlong] at hfinished
    refine ⟨last.turtle.outline last.turtle.live.path, ?_, ?_, ?_⟩
    · rw [Turtle.points_outline]
      exact hpath
    · rw [result_attempt_penUp, hfinished]
      rfl
    · rw [attempt_plotter, hfinished]
      rfl

end

/-- A stroke with two turns and a branch between them. The move on the branch is lost with it, so a
turtle that anchors its corners draws the point where the pen was set down three times, and any
other draws nothing. -/
theorem branch_does_not_move_stroke :
    let plotter (kind : CurveKind) : Plotter Sketchbook Nat :=
      { turtle := .initial "twig" kind {}, canvas := {} }
    let commands : List Command := [.turn 1, .push, .turn 2, .forward 3, .pop, .turn 1]
    let last (kind : CurveKind) := (plotter kind).attemptAll (.penDown :: commands)
    (∃ outline, outline.points = List.replicate 3 Vector3.zero ∧
        ((last .nurbs).attempt .penUp).result =
          .ok (some (Canvas.draw (last .nurbs).canvas outline).2)) ∧
      ((last .bezier).attempt .penUp).result = .ok none := by
  intro plotter commands last
  have hlevel (kind : CurveKind) :
      (plotter kind).turtle.atLevel (plotter kind).turtle.depth (.penDown :: commands) =
        [.penDown, .turn 1, .push, .turn 1] := rfl
  have habove (kind : CurveKind) : ∀ part, part <+: .penDown :: commands →
      (plotter kind).turtle.depth ≤ ((plotter kind).attemptAll part).turtle.depth :=
    fun _ _ ↦ Nat.succ_pos _
  have hend (kind : CurveKind) : (last kind).turtle.depth = (plotter kind).turtle.depth := rfl
  have hstill (kind : CurveKind) :
      ∀ command ∈ (plotter kind).turtle.atLevel (plotter kind).turtle.depth (.penDown :: commands),
        command.isForward = false ∧ command.isPenUp = false := by
    rw [hlevel]
    decide
  have hdrawn (kind : CurveKind) := Plotter.liftPen_without_move (plotter kind) commands rfl
    (habove kind) (hend kind) (hstill kind)
  constructor
  · obtain ⟨-, hcurve⟩ := hdrawn .nurbs
    rw [hlevel] at hcurve
    obtain ⟨outline, hpoints, hresult, -⟩ := hcurve rfl (by decide)
    exact ⟨outline, hpoints, hresult⟩
  · obtain ⟨hnothing, -⟩ := hdrawn .bezier
    exact (hnothing (.inl rfl)).1

/-- A turtle that anchors its corners sets its pen down, turns and lifts the pen. It is where it
was, and yet a curve of two equal points is drawn. -/
theorem turning_draws_a_point :
    let start : Plotter Sketchbook Nat := { turtle := .initial "dot" .nurbs {}, canvas := {} }
    let last := start.attemptAll [.penDown, .turn 1]
    start.turtle.live.penDown = false ∧
      last.turtle.live.position = start.turtle.live.position ∧
      (last.attempt .penUp).result = .ok (some 0) ∧
      (last.attempt .penUp).plotter.canvas.outlines.toList.map (·.points) =
        [[Vector3.zero, Vector3.zero]] :=
  ⟨rfl, rfl, rfl, congrArg (fun points ↦ [points]) (Turtle.points_outline _ _)⟩

end Lindenmayer
