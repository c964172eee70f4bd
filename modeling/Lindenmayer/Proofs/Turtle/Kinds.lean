import Lindenmayer.Proofs.Turtle.Coherence
import Mathlib.Data.List.Forall2

/-!
# Turtles of different kinds

Turtles that differ only in the kind of their curves go the same way under the same commands. What
the kind decides is the encoding of a curve, and whether a corner is recorded once more: a turtle of
a kind that anchors its corners has more points on its paths than one of a kind that does not, and
each of these additional points repeats the point before it. `Repeats` relates such paths.

`Snapshot.Echoes` is the relation between two snapshots of such turtles. With the pen down the path
ends at the position, so what an anchored corner adds is a repetition; this is where
`Snapshot.Coherent` is needed. `Snapshot.Echoes.perform` is the step for snapshots.
`Turtle.Parallel` lifts a relation of snapshots to turtles, the saved snapshots included, each with
the one at its place; `Turtle.Parallel.step` and `Turtle.Parallel.after` are the step and the run.
`Plotter.kinds_run_in_parallel` states what follows for plotters on any canvases.
-/

set_option autoImplicit false

namespace Lindenmayer

/-! ### Repeated points -/

/-- The second list is the first with additional elements, each of which repeats the element right
before it. -/
inductive Repeats {α : Type} : List α → List α → Prop
  | nil : Repeats [] []
  | keep {plain full : List α} (element : α) :
    Repeats plain full → Repeats (plain ++ [element]) (full ++ [element])
  | again {plain full : List α} {element : α} :
    Repeats plain (full ++ [element]) → Repeats plain (full ++ [element] ++ [element])

namespace Repeats

variable {α : Type} {plain full : List α}

theorem singleton (element : α) : Repeats [element] [element] := .keep element .nil

/-- The last element can be repeated. -/
theorem concat_of_getLast? {element : α} (h : Repeats plain full)
    (hlast : full.getLast? = some element) : Repeats plain (full ++ [element]) := by
  obtain ⟨front, rfl⟩ := List.getLast?_eq_some_iff.mp hlast
  exact .again h

theorem sublist (h : Repeats plain full) : plain.Sublist full := by
  induction h with
  | nil => exact .slnil
  | keep element _ ih => exact ih.append_right [element]
  | again _ ih => exact ih.trans (List.sublist_append_left _ _)

/-- Repetitions bring no new element in. -/
theorem subset (h : Repeats plain full) : full ⊆ plain := by
  induction h with
  | nil => exact List.Subset.refl []
  | keep element _ ih =>
    intro other hother
    rcases List.mem_append.mp hother with hbefore | hlast
    · exact List.mem_append_left [element] (ih hbefore)
    · exact List.mem_append_right _ hlast
  | again _ ih =>
    intro other hother
    rcases List.mem_append.mp hother with hbefore | hlast
    · exact ih hbefore
    · exact ih (List.mem_append_right _ hlast)

end Repeats

/-! ### Snapshots -/

namespace Snapshot

/-- Two snapshots of turtles that have carried out the same commands, the first for a kind that does
not anchor its corners. -/
structure Echoes (plain full : Snapshot) : Prop where
  position_eq : full.position = plain.position
  heading_eq : full.heading = plain.heading
  penDown_eq : full.penDown = plain.penDown
  /-- The path of the second repeats points of the first. -/
  repeats : Repeats plain.path.toList full.path.toList
  /-- The paths are equal if the second kind does not anchor its corners either. -/
  path_eq : full.kind.anchorsCorners = false → full.path = plain.path
  anchorsCorners_eq : plain.kind.anchorsCorners = false
  plain_coherent : plain.Coherent
  full_coherent : full.Coherent

theorem echoes_initial (origin : Point) {plain : CurveKind} (h : plain.anchorsCorners = false)
    (full : CurveKind) : (initial origin plain).Echoes (initial origin full) where
  position_eq := rfl
  heading_eq := rfl
  penDown_eq := rfl
  repeats := .singleton origin
  path_eq _ := rfl
  anchorsCorners_eq := h
  plain_coherent := coherent_initial origin plain
  full_coherent := coherent_initial origin full

namespace Echoes

variable {plain full : Snapshot}

/-- If the path of the first has less than two points, the other repeats the only point of it. -/
theorem toList_eq_of_size (h : plain.Echoes full) (hsize : ¬ 1 < plain.path.size) :
    ∃ point, plain.path.toList = [point] ∧ ∀ other ∈ full.path.toList, other = point := by
  have hpos := h.plain_coherent.size_pos
  obtain ⟨point, hpoint⟩ : ∃ point, plain.path.toList = [point] := by
    refine List.length_eq_one_iff.mp ?_
    rw [Array.length_toList]
    omega
  refine ⟨point, hpoint, fun other hother ↦ ?_⟩
  have hmem := h.repeats.subset hother
  rw [hpoint] at hmem
  exact List.mem_singleton.mp hmem

theorem size_le (h : plain.Echoes full) : plain.path.size ≤ full.path.size := by
  simpa using h.repeats.sublist.length_le

/-- A path of one point that is finished by its echo alone is at the position: the turtle has not
moved since the pen was set down. -/
theorem toList_eq_position (h : plain.Echoes full) (hplain : ¬ 1 < plain.path.size)
    (hfull : 1 < full.path.size) : plain.path.toList = [plain.position] := by
  obtain ⟨point, hpoint, -⟩ := h.toList_eq_of_size hplain
  have hpen : plain.penDown = true := by
    rw [← h.penDown_eq]
    refine eq_true_of_ne_false fun hraised ↦ ?_
    rw [h.full_coherent.size_of_raised hraised] at hfull
    exact absurd hfull (Nat.lt_irrefl 1)
  have hback := h.plain_coherent.back_of_lowered hpen
  rw [← Array.getLast?_toList, hpoint] at hback
  obtain rfl : point = plain.position := Option.some.inj hback
  exact hpoint

theorem forward (h : plain.Echoes full) (distance : Float32) :
    (plain.forward distance).Echoes (full.forward distance) := by
  have hplain := h.plain_coherent.perform (.forward distance)
  have hfull := h.full_coherent.perform (.forward distance)
  obtain ⟨hposition, hheading, hpen, hrepeats, hpath, hanchors, -, -⟩ := h
  rw [Snapshot.perform, forward_eq] at hplain hfull
  rw [forward_eq, forward_eq]
  have hmoved : full.position + full.direction.scale distance =
      plain.position + plain.direction.scale distance := by
    rw [hposition, direction, hheading, direction]
  refine ⟨hmoved, hheading, hpen, ?_, fun hkind ↦ ?_, hanchors, hplain, hfull⟩
  · simp only [hpen, hmoved]
    by_cases hlowered : plain.penDown = true
    · simpa [hlowered] using hrepeats.keep _
    · simpa [hlowered] using hrepeats
  · simp only [hpen, hmoved, hpath hkind]

/-- With the pen down the path ends at the position, which an anchored corner records once more. -/
theorem turn (h : plain.Echoes full) (angle : Float32) :
    (plain.turn angle).Echoes (full.turn angle) := by
  have hplain := h.plain_coherent.perform (.turn angle)
  have hfull := h.full_coherent.perform (.turn angle)
  obtain ⟨hposition, hheading, hpen, hrepeats, hpath, hanchors, -, hcoherent⟩ := h
  rw [Snapshot.perform, turn_eq] at hplain hfull
  rw [turn_eq, turn_eq]
  refine ⟨hposition, by simp only [hheading], hpen, ?_, fun hkind ↦ ?_, hanchors, hplain, hfull⟩
  · simp only [hpen, hanchors, Bool.and_false, Bool.false_eq_true, if_false]
    by_cases hanchored : (plain.penDown && full.kind.anchorsCorners) = true
    · have hback : full.path.back? = some full.position := by
        apply hcoherent.back_of_lowered
        rw [hpen]
        exact (Bool.and_eq_true_iff.mp hanchored).1
      rw [← Array.getLast?_toList] at hback
      rw [if_pos hanchored, Array.toList_push]
      exact hrepeats.concat_of_getLast? hback
    · rwa [if_neg hanchored]
  · have hkind : full.kind.anchorsCorners = false := hkind
    simp only [hanchors, hkind, Bool.and_false, Bool.false_eq_true, if_false, hpath hkind]

theorem lowerPen (h : plain.Echoes full) : plain.lowerPen.Echoes full.lowerPen := by
  have hplain := h.plain_coherent.perform .penDown
  have hfull := h.full_coherent.perform .penDown
  obtain ⟨hposition, hheading, hpen, hrepeats, hpath, hanchors, -, -⟩ := h
  rw [Snapshot.perform, lowerPen_eq] at hplain hfull
  rw [lowerPen_eq, lowerPen_eq]
  refine ⟨hposition, hheading, rfl, ?_, fun hkind ↦ ?_, hanchors, hplain, hfull⟩
  · simp only [hpen, hposition]
    by_cases hlowered : plain.penDown = true
    · simpa [hlowered] using hrepeats
    · simpa [hlowered] using Repeats.singleton plain.position
  · simp only [hpen, hposition, hpath hkind]

/-- Both paths begin anew if the first is finished. If the second is finished alone, the only point
of the first is the position, where the second begins anew. -/
theorem liftPen (h : plain.Echoes full) : plain.liftPen.1.Echoes full.liftPen.1 := by
  have hplain := h.plain_coherent.perform .penUp
  have hfull := h.full_coherent.perform .penUp
  obtain ⟨hposition, hheading, hpen, hrepeats, hpath, hanchors, -, -⟩ := id h
  rw [Snapshot.perform, liftPen_eq] at hplain hfull
  rw [liftPen_eq, liftPen_eq]
  refine ⟨hposition, hheading, rfl, ?_, fun hkind ↦ ?_, hanchors, hplain, hfull⟩
  · simp only [hposition]
    by_cases hone : 1 < plain.path.size
    · rw [if_pos hone, if_pos (Nat.lt_of_lt_of_le hone h.size_le)]
      exact .singleton plain.position
    · rw [if_neg hone]
      by_cases hother : 1 < full.path.size
      · rw [if_pos hother, h.toList_eq_position hone hother]
        exact .singleton plain.position
      · rwa [if_neg hother]
  · simp only [hposition, hpath hkind]

/-- Both snapshots perform every command in the same way. -/
theorem perform (h : plain.Echoes full) (command : Command) :
    (plain.perform command).Echoes (full.perform command) := by
  cases command with
  | forward distance => exact h.forward distance
  | turn angle => exact h.turn angle
  | penDown => exact h.lowerPen
  | penUp => exact h.liftPen
  | push | pop | ignore => exact h

end Echoes

end Snapshot

/-! ### Turtles -/

namespace Turtle

/-- Two turtles of the same setup whose live snapshots are related, and whose saved snapshots are
related too, each with the one at its place. -/
structure Parallel (relation : Snapshot → Snapshot → Prop) (first second : Turtle) : Prop where
  setup_eq : second.setup = first.setup
  live : relation first.live second.live
  saved : List.Forall₂ relation first.saved second.saved

/-- Whether a turtle carries out a command, and the reason for a refusal. -/
def outcome (turtle : Turtle) (command : Command) : Except StackError Unit :=
  (turtle.carryOut command).2.map fun _ ↦ ()

namespace Parallel

variable {relation : Snapshot → Snapshot → Prop} {first second : Turtle}

theorem depth_eq (h : first.Parallel relation second) : second.depth = first.depth := by
  rw [depth, depth, h.saved.length_eq]

/-- Assumes: commands keep snapshots related. Turtles in parallel carry out a command or refuse it
together, for the same reason, and remain in parallel. -/
theorem step (h : first.Parallel relation second)
    (hperform : ∀ one other, relation one other → ∀ command,
      relation (one.perform command) (other.perform command)) (command : Command) :
    (first.next command).Parallel relation (second.next command) ∧
      second.outcome command = first.outcome command := by
  by_cases hplain : command.isStack = false
  · obtain ⟨outline, hfirst⟩ := first.carryOut_of_not_isStack hplain
    obtain ⟨other, hsecond⟩ := second.carryOut_of_not_isStack hplain
    rw [next_of_ok hfirst, next_of_ok hsecond, outcome, outcome, hfirst, hsecond]
    exact ⟨⟨h.setup_eq, hperform _ _ h.live command, h.saved⟩, rfl⟩
  cases command with
  | forward _ | turn _ | penDown | penUp | ignore => exact absurd rfl hplain
  | push =>
    have hfirst := first.carryOut_push
    have hsecond := second.carryOut_push
    rw [h.setup_eq, h.depth_eq] at hsecond
    by_cases hfull : first.setup.maxDepth.toNat ≤ first.depth
    · rw [if_pos hfull] at hfirst hsecond
      rw [next, next, outcome, outcome, hfirst, hsecond]
      exact ⟨h, rfl⟩
    · rw [if_neg hfull] at hfirst hsecond
      rw [next_of_ok hfirst, next_of_ok hsecond, outcome, outcome, hfirst, hsecond]
      exact ⟨⟨rfl, h.live, .cons h.live h.saved⟩, rfl⟩
  | pop =>
    have hsaved := h.saved
    cases hstack : first.saved with
    | nil =>
      rw [hstack, List.forall₂_nil_left_iff] at hsaved
      have hfirst := carryOut_pop_of_nil hstack
      have hsecond := carryOut_pop_of_nil hsaved
      rw [next, next, outcome, outcome, hfirst, hsecond]
      exact ⟨h, rfl⟩
    | cons live rest =>
      rw [hstack, List.forall₂_cons_left_iff] at hsaved
      obtain ⟨otherLive, otherRest, hlive, hrest, hother⟩ := hsaved
      have hfirst := carryOut_pop hstack
      have hsecond := carryOut_pop hother
      rw [next_of_ok hfirst, next_of_ok hsecond, outcome, outcome, hfirst, hsecond]
      exact ⟨⟨h.setup_eq, hlive, hrest⟩, rfl⟩

theorem after (h : first.Parallel relation second)
    (hperform : ∀ one other, relation one other → ∀ command,
      relation (one.perform command) (other.perform command)) (commands : List Command) :
    (first.after commands).Parallel relation (second.after commands) := by
  induction commands generalizing first second with
  | nil => exact h
  | cons command commands ih => exact ih (h.step hperform command).1

end Parallel

/-- A turtle whose kind anchors no corners runs in parallel with one of any other kind. -/
theorem parallel_after_initial (name : String) {plain : CurveKind}
    (h : plain.anchorsCorners = false) (full : CurveKind) (setup : Setup)
    (commands : List Command) :
    ((initial name plain setup).after commands).Parallel Snapshot.Echoes
      ((initial name full setup).after commands) := by
  have hstart : (initial name plain setup).Parallel Snapshot.Echoes (initial name full setup) :=
    ⟨rfl, Snapshot.echoes_initial setup.origin h full, .nil⟩
  exact hstart.after (fun _ _ hrelated ↦ hrelated.perform) commands

/-! ### Finished curves -/

/-- The points of the curve that a command finishes, if it finishes one. -/
def finishedPoints (turtle : Turtle) (command : Command) : Option (List Point) :=
  (turtle.finished command).map (·.points)

theorem finishedPoints_of_ne_penUp (turtle : Turtle) {command : Command} (h : command ≠ .penUp) :
    turtle.finishedPoints command = none := by
  rw [finishedPoints, turtle.finished_of_ne_penUp h, Option.map_none]

theorem finishedPoints_penUp (turtle : Turtle) :
    turtle.finishedPoints .penUp =
      if 1 < turtle.live.path.size then some turtle.live.path.toList else none := by
  rw [finishedPoints, finished_penUp]
  split
  · rw [Option.map_some, points_outline]
  · rfl

namespace Parallel

variable {plain full : Turtle}

/-- If neither kind anchors its corners, the same curves are finished. -/
theorem finishedPoints_eq (h : plain.Parallel Snapshot.Echoes full)
    (hkind : full.live.kind.anchorsCorners = false) (command : Command) :
    full.finishedPoints command = plain.finishedPoints command := by
  by_cases hlift : command = .penUp
  · rw [hlift, finishedPoints_penUp, finishedPoints_penUp, h.live.path_eq hkind]
  · rw [finishedPoints_of_ne_penUp _ hlift, finishedPoints_of_ne_penUp _ hlift]

/-- Where the first turtle finishes a curve, the second finishes one that repeats points of it. -/
theorem exists_repeats (h : plain.Parallel Snapshot.Echoes full) {command : Command}
    {points : List Point} (hpoints : plain.finishedPoints command = some points) :
    ∃ others, full.finishedPoints command = some others ∧ Repeats points others := by
  by_cases hlift : command = .penUp
  · subst hlift
    rw [finishedPoints_penUp] at hpoints
    split at hpoints
    · rename_i hsize
      obtain rfl := Option.some.inj hpoints
      refine ⟨full.live.path.toList, ?_, h.live.repeats⟩
      rw [finishedPoints_penUp, if_pos (Nat.lt_of_lt_of_le hsize h.live.size_le)]
    · cases hpoints
  · rw [finishedPoints_of_ne_penUp _ hlift] at hpoints
    cases hpoints

/-- Where the second turtle finishes a curve alone, all points of the curve are equal. -/
theorem eq_of_finishedPoints (h : plain.Parallel Snapshot.Echoes full) {command : Command}
    (hnone : plain.finishedPoints command = none) {others : List Point}
    (hothers : full.finishedPoints command = some others) :
    ∀ one ∈ others, ∀ other ∈ others, one = other := by
  by_cases hlift : command = .penUp
  · subst hlift
    rw [finishedPoints_penUp] at hnone hothers
    split at hothers
    · obtain rfl := Option.some.inj hothers
      split at hnone
      · cases hnone
      · rename_i hsize
        obtain ⟨point, -, hall⟩ := h.live.toList_eq_of_size hsize
        intro one hone other hother
        rw [hall one hone, hall other hother]
    · cases hothers
  · rw [finishedPoints_of_ne_penUp _ hlift] at hothers
    cases hothers

end Parallel

end Turtle

/-! ### Plotters -/

namespace Plotter

theorem outcome_attempt {σ η : Type} [Canvas σ η] (plotter : Plotter σ η) (command : Command) :
    (plotter.attempt command).result.map (fun _ ↦ ()) = plotter.turtle.outcome command := by
  cases h : (plotter.turtle.carryOut command).2 with
  | error error =>
    rw [attempt_of_error h, Turtle.outcome, h]
    rfl
  | ok outline =>
    rw [attempt_of_ok (Prod.ext rfl h), Turtle.outcome, h]
    rfl

/-- The calls that a command adds are made for the curve that it finishes, if it finishes one. -/
theorem exists_calls_concat {σ η : Type} [Canvas σ η] (plotter : Plotter σ η)
    (commands : List Command) (command : Command) :
    ∃ made, plotter.calls (commands ++ [command]) = plotter.calls commands ++ made ∧
      made.map (·.outline.points) =
        ((plotter.attemptAll commands).turtle.finishedPoints command).toList := by
  refine ⟨_, plotter.calls_concat commands command, ?_⟩
  rw [Turtle.finishedPoints]
  cases (plotter.attemptAll commands).turtle.finished command with
  | none => rfl
  | some outline => rfl

/-- New turtles that differ only in their kinds, on any canvases, after any commands. They have the
same position, heading, pen and depth. They carry out the next command or refuse it together, for
the same reason. No command but lifting the pen makes a canvas draw. Straight segments and Bezier
curves are drawn by the same commands, through the same points. A rational spline is drawn by these
commands too, through the same points, some of which are repeated; any other rational spline that is
drawn has all its points in one place. -/
theorem kinds_run_in_parallel {σ η : CurveKind → Type} [∀ kind, Canvas (σ kind) (η kind)]
    (name : String) (setup : Setup) (canvas : ∀ kind, σ kind) (commands : List Command) :
    let start (kind : CurveKind) : Plotter (σ kind) (η kind) :=
      { turtle := .initial name kind setup, canvas := canvas kind }
    let last (kind : CurveKind) := (start kind).attemptAll commands
    (∀ kind,
      (last kind).turtle.live.position = (last .poly).turtle.live.position ∧
        (last kind).turtle.live.heading = (last .poly).turtle.live.heading ∧
        (last kind).turtle.live.penDown = (last .poly).turtle.live.penDown ∧
        (last kind).turtle.depth = (last .poly).turtle.depth) ∧
    ∀ command,
      let drawn (kind : CurveKind) := (last kind).turtle.finishedPoints command
      (∀ kind, ((last kind).attempt command).result.map (fun _ ↦ ()) =
        ((last .poly).attempt command).result.map (fun _ ↦ ())) ∧
      (∀ kind, ∃ made,
        (start kind).calls (commands ++ [command]) = (start kind).calls commands ++ made ∧
          made.map (·.outline.points) = (drawn kind).toList) ∧
      (∀ kind, command = .penUp ∨ drawn kind = none) ∧
      drawn .bezier = drawn .poly ∧
      (∀ plain, drawn .poly = some plain →
        ∃ full, drawn .nurbs = some full ∧ plain.Sublist full ∧ Repeats plain full) ∧
      (drawn .poly = none → ∀ full, drawn .nurbs = some full →
        ∀ one ∈ full, ∀ other ∈ full, one = other) := by
  intro start last
  have hturtle : ∀ kind, (last kind).turtle = (Turtle.initial name kind setup).after commands :=
    fun kind ↦ (start kind).turtle_attemptAll commands
  have hparallel : ∀ kind, (last .poly).turtle.Parallel Snapshot.Echoes (last kind).turtle := by
    intro kind
    rw [hturtle, hturtle]
    exact Turtle.parallel_after_initial name rfl kind setup commands
  have hbezier : (last .bezier).turtle.live.kind.anchorsCorners = false := by
    have hkind : (last .bezier).turtle.live.kind = .bezier := by
      rw [hturtle]
      exact Turtle.kind_of_mem_snapshots_after commands _ List.mem_cons_self
    rw [hkind]
    rfl
  refine ⟨fun kind ↦ ?_, fun command ↦ ?_⟩
  · have hlive := (hparallel kind).live
    exact ⟨hlive.position_eq, hlive.heading_eq, hlive.penDown_eq, (hparallel kind).depth_eq⟩
  · intro drawn
    refine ⟨fun kind ↦ ?_, fun kind ↦ ?_, fun kind ↦ ?_, ?_, fun plain hplain ↦ ?_,
      fun hnone full hfull ↦ ?_⟩
    · rw [outcome_attempt, outcome_attempt]
      exact ((hparallel kind).step (fun _ _ hrelated ↦ hrelated.perform) command).2
    · exact (start kind).exists_calls_concat commands command
    · by_cases hlift : command = .penUp
      · exact .inl hlift
      · exact .inr ((last kind).turtle.finishedPoints_of_ne_penUp hlift)
    · exact (hparallel .bezier).finishedPoints_eq hbezier command
    · obtain ⟨full, hfull, hrepeats⟩ := (hparallel .nurbs).exists_repeats hplain
      exact ⟨full, hfull, hrepeats.sublist, hrepeats⟩
    · exact (hparallel .nurbs).eq_of_finishedPoints hnone hfull

/-- A stroke with a corner is drawn for both kinds, and the rational spline repeats the corner. A
stroke on the spot is drawn for the rational spline alone, and has two equal points. -/
theorem corner_and_spot :
    let start (kind : CurveKind) : Plotter Sketchbook Nat :=
      { turtle := .initial "pen" kind {}, canvas := {} }
    let corner : List Command := [.penDown, .forward 1, .turn 1, .forward 1]
    let spot : List Command := [.penDown, .turn 1]
    let drawn (kind : CurveKind) (commands : List Command) :=
      ((start kind).attemptAll commands).turtle.finishedPoints .penUp
    (∃ plain full, drawn .poly corner = some plain ∧ drawn .nurbs corner = some full ∧
      plain.length = 3 ∧ Repeats plain full) ∧
      ∃ full, drawn .poly spot = none ∧ drawn .nurbs spot = some full ∧ full.length = 2 ∧
        ∀ one ∈ full, ∀ other ∈ full, one = other := by
  intro start corner spot drawn
  have hrun := kinds_run_in_parallel "pen" {} fun _ ↦ ({} : Sketchbook)
  obtain ⟨-, hcorner⟩ := hrun corner
  obtain ⟨-, -, -, -, hrepeats, -⟩ := hcorner .penUp
  obtain ⟨-, hspot⟩ := hrun spot
  obtain ⟨-, -, -, -, -, hequal⟩ := hspot .penUp
  obtain ⟨full, hfull, -, hfullRepeats⟩ := hrepeats _ rfl
  exact ⟨⟨_, full, rfl, hfull, congrArg List.length (Turtle.points_outline _ _), hfullRepeats⟩,
    _, rfl, rfl, congrArg List.length (Turtle.points_outline _ _), hequal rfl _ rfl⟩

end Plotter

end Lindenmayer
