import Lindenmayer.Path.Polyline
import Lindenmayer.Proofs.Turtle.Course

/-!
# The account of drawn curves

Four lists grow while a plotter works: the handles that it keeps, the calls that its canvas gets,
the events of its curves and, on a sketchbook, the outlines in the book. None of them is part of a
snapshot, so the stack of the turtle cannot take anything back from them.

The calls are made visible by an `Observed` canvas, which passes every outline on and writes down
the call with the answer. `Canvas.Shows` says when a canvas can be seen through another one like
this, and `Plotter.attemptAll_seenThrough` that the observation changes nothing; a `Lent` canvas is
seen through in the same way. `Turtle.drawnPaths` says what should be drawn: the live path at every
lifting of the pen that finds two points or more on it.

`Plotter.calls_spec` accounts for the calls and the handles, `Plotter.events_eq` for the events and
`Plotter.attemptAll_sketchbook` for the outlines. `curve_accounts_agree` ties them together.
-/

set_option autoImplicit false

namespace Lindenmayer

/-! ### Canvases seen through others -/

section

variable {σ τ η : Type} [Canvas σ η] [Canvas τ η] {view : σ → τ}

/-- Whether drawing on a canvas is drawing on the one that `view` shows in it. -/
def Canvas.Shows (view : σ → τ) : Prop :=
  ∀ canvas outline, Canvas.draw (view canvas) outline =
    (view (Canvas.draw canvas outline).1, (Canvas.draw canvas outline).2)

/-- The plotter on the canvas that is shown in the one of a plotter. -/
def Plotter.seenThrough (view : σ → τ) (plotter : Plotter σ η) : Plotter τ η :=
  ⟨plotter.turtle, view plotter.canvas, plotter.handles⟩

theorem Plotter.drawAll_seenThrough (h : Canvas.Shows view) (plotter : Plotter σ η)
    (outlines : List Outline) :
    (plotter.drawAll outlines).seenThrough view =
      (plotter.seenThrough view).drawAll outlines := by
  induction outlines generalizing plotter with
  | nil => rfl
  | cons outline outlines ih =>
    show ((plotter.draw outline).plotter.drawAll outlines).seenThrough view =
      ((plotter.seenThrough view).draw outline).plotter.drawAll outlines
    have hdraw : ((plotter.seenThrough view).draw outline).plotter =
        (plotter.draw outline).plotter.seenThrough view := by
      rw [draw, seenThrough, h plotter.canvas outline]
      rfl
    rw [ih, hdraw]

/-- What is done on a canvas is done on the one that is shown in it. -/
theorem Plotter.attemptAll_seenThrough [Trigonometry] (h : Canvas.Shows view)
    (plotter : Plotter σ η) (commands : List Command) :
    (plotter.attemptAll commands).seenThrough view =
      (plotter.seenThrough view).attemptAll commands := by
  rw [attemptAll_eq, attemptAll_eq, ← drawAll_seenThrough h]
  rfl

end

theorem Lent.shows {σ η : Type} [Canvas σ η] : Canvas.Shows fun lent : Lent σ ↦ lent.canvas :=
  fun _ _ ↦ rfl

/-! ### Observed canvases -/

/-- What a canvas was given to draw and the handle that it answered with. -/
structure Call (η : Type) where
  outline : Outline
  handle : η

/-- A canvas with a list of all calls that were made to it, first to last. -/
structure Observed (σ η : Type) where
  canvas : σ
  calls : List (Call η) := []

section

variable {σ η : Type} [Canvas σ η]

instance : Canvas (Observed σ η) η where
  draw observed outline :=
    let (canvas, handle) := Canvas.draw observed.canvas outline
    (⟨canvas, observed.calls ++ [⟨outline, handle⟩]⟩, handle)

theorem Observed.shows : Canvas.Shows fun observed : Observed σ η ↦ observed.canvas :=
  fun _ _ ↦ rfl

namespace Plotter

/-- The plotter with its canvas under observation. -/
def observed (plotter : Plotter σ η) : Plotter (Observed σ η) η :=
  ⟨plotter.turtle, { canvas := plotter.canvas }, plotter.handles⟩

/-- The calls that the canvas gets in the course of a list of commands. -/
def calls [Trigonometry] (plotter : Plotter σ η) (commands : List Command) : List (Call η) :=
  (plotter.observed.attemptAll commands).canvas.calls

/-- Being observed changes nothing. -/
theorem seenThrough_observed [Trigonometry] (plotter : Plotter σ η) (commands : List Command) :
    (plotter.observed.attemptAll commands).seenThrough (·.canvas) =
      plotter.attemptAll commands :=
  plotter.observed.attemptAll_seenThrough Observed.shows commands

/-- Drawing outlines on an observed canvas adds one call for each of them, and the answers to these
calls to the handles. -/
theorem calls_drawAll (plotter : Plotter (Observed σ η) η) (outlines : List Outline) :
    ∃ more : List (Call η), more.map (·.outline) = outlines ∧
      (plotter.drawAll outlines).canvas.calls = plotter.canvas.calls ++ more ∧
      (plotter.drawAll outlines).handles.toList =
        plotter.handles.toList ++ more.map (·.handle) := by
  induction outlines generalizing plotter with
  | nil => exact ⟨[], rfl, (List.append_nil _).symm, (List.append_nil _).symm⟩
  | cons outline outlines ih =>
    obtain ⟨more, houtlines, hcalls, hhandles⟩ := ih (plotter.draw outline).plotter
    have hanswer : (plotter.draw outline).plotter.handles.toList =
        plotter.handles.toList ++ [(Canvas.draw plotter.canvas.canvas outline).2] :=
      Array.toList_push
    refine ⟨⟨outline, (Canvas.draw plotter.canvas.canvas outline).2⟩ :: more, ?_, ?_, ?_⟩
    · rw [List.map_cons, houtlines]
    · exact hcalls.trans (List.append_assoc _ _ _)
    · refine hhandles.trans ?_
      rw [hanswer, List.append_assoc]
      rfl

/-- The calls of a list of commands are made for the outlines that the turtle finishes, and their
answers are the handles that are added. More commands only add to both. -/
theorem calls_spec [Trigonometry] (plotter : Plotter σ η) (commands : List Command) :
    (plotter.calls commands).map (·.outline) = plotter.turtle.outlines commands ∧
      (plotter.attemptAll commands).handles.toList =
        plotter.handles.toList ++ (plotter.calls commands).map (·.handle) := by
  obtain ⟨more, houtlines, hcalls, hhandles⟩ :=
    plotter.observed.calls_drawAll (plotter.turtle.outlines commands)
  have hmore : plotter.calls commands = more := by
    rw [calls, attemptAll_eq]
    exact hcalls
  rw [hmore, ← seenThrough_observed, attemptAll_eq]
  exact ⟨houtlines, hhandles⟩

/-- Calls that were made are never taken back. -/
theorem calls_prefix (plotter : Plotter σ η) (first second : List Command) :
    plotter.calls first <+: plotter.calls (first ++ second) := by
  obtain ⟨more, -, hcalls, -⟩ := (plotter.observed.attemptAll first).calls_drawAll
    ((plotter.observed.attemptAll first).turtle.outlines second)
  refine ⟨more, ?_⟩
  rw [calls, calls, attemptAll_append, attemptAll_eq _ second]
  exact hcalls.symm

/-- A command makes a call exactly if it finishes a curve. -/
theorem calls_concat (plotter : Plotter σ η) (commands : List Command) (command : Command) :
    plotter.calls (commands ++ [command]) =
      plotter.calls commands ++
        (((plotter.attemptAll commands).turtle.finished command).map fun outline ↦
          (⟨outline, (Canvas.draw (plotter.attemptAll commands).canvas outline).2⟩ :
            Call η)).toList := by
  rw [calls, calls, attemptAll_append, ← plotter.seenThrough_observed commands]
  show ((plotter.observed.attemptAll commands).attempt command).plotter.canvas.calls =
    _ ++ (((plotter.observed.attemptAll commands).turtle.finished command).map _).toList
  rw [attempt_plotter]
  cases (plotter.observed.attemptAll commands).turtle.finished command with
  | none => exact (List.append_nil _).symm
  | some outline => rfl

/-- A command that does not lift the pen makes no call. -/
theorem calls_concat_of_ne_penUp (plotter : Plotter σ η) (commands : List Command)
    {command : Command} (h : command ≠ .penUp) :
    plotter.calls (commands ++ [command]) = plotter.calls commands := by
  rw [calls_concat, Turtle.finished_of_ne_penUp _ h]
  exact List.append_nil _

/-- Lifting the pen returns the answer of the canvas to the curve that is thereby finished. -/
theorem result_attempt_penUp (plotter : Plotter σ η) :
    (plotter.attempt .penUp).result =
      .ok ((plotter.turtle.finished .penUp).map fun outline ↦
        (Canvas.draw plotter.canvas outline).2) := by
  have hcarryOut : plotter.turtle.carryOut .penUp =
      (plotter.turtle.next .penUp, .ok (plotter.turtle.finished .penUp)) := rfl
  rw [attempt_of_ok hcarryOut]
  cases plotter.turtle.finished .penUp with
  | none => rfl
  | some outline => rfl

/-- Lifting the pen makes one call and returns the answer to it, or makes no call and returns
nothing, according to whether there are two points on the path. -/
theorem penUp_cases (plotter : Plotter σ η) (commands : List Command) :
    let turtle := (plotter.attemptAll commands).turtle
    let result := ((plotter.attemptAll commands).attempt .penUp).result
    turtle.live.path.size < 2 ∧ result = .ok none ∧
        plotter.calls (commands ++ [.penUp]) = plotter.calls commands ∨
      2 ≤ turtle.live.path.size ∧ ∃ handle, result = .ok (some handle) ∧
        plotter.calls (commands ++ [.penUp]) =
          plotter.calls commands ++ [⟨turtle.outline turtle.live.path, handle⟩] := by
  intro turtle result
  have hfinished := turtle.finished_penUp
  by_cases hpath : 1 < turtle.live.path.size
  · rw [if_pos hpath] at hfinished
    refine .inr ⟨hpath, _, (result_attempt_penUp _).trans (by rw [hfinished]; rfl), ?_⟩
    rw [calls_concat, hfinished]
    rfl
  · rw [if_neg hpath] at hfinished
    refine .inl ⟨Nat.lt_of_not_le hpath, ?_, ?_⟩
    · exact (result_attempt_penUp _).trans (by rw [hfinished]; rfl)
    · rw [calls_concat, hfinished]
      exact List.append_nil _

end Plotter

end

/-! ### Sketchbooks -/

/-- Drawing outlines in a sketchbook adds them to it, and their places to the handles. -/
theorem Plotter.drawAll_sketchbook (plotter : Plotter Sketchbook Nat) (outlines : List Outline) :
    (plotter.drawAll outlines).canvas.outlines.toList =
        plotter.canvas.outlines.toList ++ outlines ∧
      (plotter.drawAll outlines).handles.toList =
        plotter.handles.toList ++
          List.range' plotter.canvas.outlines.size outlines.length := by
  induction outlines generalizing plotter with
  | nil => exact ⟨(List.append_nil _).symm, (List.append_nil _).symm⟩
  | cons outline outlines ih =>
    obtain ⟨houtlines, hhandles⟩ := ih (plotter.draw outline).plotter
    have hbook : (plotter.draw outline).plotter.canvas.outlines =
        plotter.canvas.outlines.push outline := rfl
    have hanswer : (plotter.draw outline).plotter.handles.toList =
        plotter.handles.toList ++ [plotter.canvas.outlines.size] := Array.toList_push
    constructor
    · refine houtlines.trans ?_
      rw [hbook, Array.toList_push, List.append_assoc, List.singleton_append]
    · refine hhandles.trans ?_
      rw [hanswer, hbook, Array.size_push, List.append_assoc, List.length_cons, List.range'_succ,
        List.singleton_append]

/-- A plotter with a sketchbook adds to it what its turtle finishes, and the places to its
handles. -/
theorem Plotter.attemptAll_sketchbook (plotter : Plotter Sketchbook Nat) (commands : List Command) :
    (plotter.attemptAll commands).canvas.outlines.toList =
        plotter.canvas.outlines.toList ++ plotter.turtle.outlines commands ∧
      (plotter.attemptAll commands).handles.toList =
        plotter.handles.toList ++
          List.range' plotter.canvas.outlines.size (plotter.turtle.outlines commands).length := by
  rw [attemptAll_eq]
  exact plotter.drawAll_sketchbook (plotter.turtle.outlines commands)

/-- An outline that was put into a sketchbook keeps its place there. -/
theorem Plotter.getElem?_sketchbook (plotter : Plotter Sketchbook Nat)
    (commands further : List Command) {index : Nat} {outline : Outline}
    (h : (plotter.turtle.outlines commands)[index]? = some outline) :
    (plotter.attemptAll (commands ++ further)).canvas.outlines[
      plotter.canvas.outlines.size + index]? = some outline := by
  obtain ⟨hindex, -⟩ := List.getElem?_eq_some_iff.mp h
  obtain ⟨houtlines, -⟩ := plotter.attemptAll_sketchbook (commands ++ further)
  rw [← Array.getElem?_toList, houtlines, ← Array.length_toList,
    List.getElem?_append_right (Nat.le_add_right _ _), Nat.add_sub_cancel_left,
    Turtle.outlines_append, List.getElem?_append_left hindex, h]

/-! ### Drawn paths -/

/-- The outline of a path that is drawn by a turtle of this name, kind and setup. -/
def Setup.outlineOf (setup : Setup) (name : String) (kind : CurveKind) (path : List Point) :
    Outline where
  name := name ++ "-curve"
  kind := kind
  vertices := kind.flatten path
  options := setup.options

theorem Setup.pointCount_outlineOf (setup : Setup) (name : String) (kind : CurveKind)
    (path : List Point) : (setup.outlineOf name kind path).pointCount = path.length :=
  kind.pointCount_flatten path

theorem Setup.points_outlineOf (setup : Setup) (name : String) (kind : CurveKind)
    (path : List Point) : (setup.outlineOf name kind path).points = path :=
  kind.points_flatten path

namespace Turtle

/-- The paths that a list of commands draws, first to last: the live path at every lifting of the
pen, if it has two points or more. -/
def drawnPaths (turtle : Turtle) : List Command → List (List Point)
  | [] => []
  | command :: commands =>
    let rest := (turtle.next command).drawnPaths commands
    if command = .penUp ∧ 2 ≤ turtle.live.path.size then turtle.live.path.toList :: rest else rest

theorem two_le_length_of_mem_drawnPaths {turtle : Turtle} {commands : List Command}
    {path : List Point} (h : path ∈ turtle.drawnPaths commands) : 2 ≤ path.length := by
  induction commands generalizing turtle with
  | nil => cases h
  | cons command commands ih =>
    rw [drawnPaths] at h
    split at h
    · rename_i hdrawn
      rcases List.mem_cons.mp h with rfl | hrest
      · exact hdrawn.2
      · exact ih hrest
    · exact ih h

theorem outline_eq_outlineOf {turtle : Turtle} {kind : CurveKind} (hkind : turtle.live.kind = kind)
    (path : Array Point) :
    turtle.outline path = turtle.setup.outlineOf turtle.name kind path.toList := by
  rw [outline, hkind]
  rfl

/-- All snapshots of a turtle record for the kind that was given at its construction. -/
theorem kind_of_mem_snapshots_after {name : String} {kind : CurveKind} {setup : Setup}
    (commands : List Command) :
    ∀ snapshot ∈ ((initial name kind setup).after commands).snapshots, snapshot.kind = kind := by
  apply forall_mem_snapshots_after
  · intro snapshot hsnapshot
    rw [List.mem_singleton.mp hsnapshot]
    rfl
  · intro command _ snapshot hkind
    rw [snapshot.kind_perform, hkind]

/-- A turtle of one kind finishes the outlines of the paths that it draws. -/
theorem outlines_eq_map_drawnPaths {turtle : Turtle} {kind : CurveKind}
    (hkind : ∀ snapshot ∈ turtle.snapshots, snapshot.kind = kind) (commands : List Command) :
    turtle.outlines commands =
      (turtle.drawnPaths commands).map (turtle.setup.outlineOf turtle.name kind) := by
  induction commands generalizing turtle with
  | nil => rfl
  | cons command commands ih =>
    have hnext : ∀ snapshot ∈ (turtle.next command).snapshots, snapshot.kind = kind :=
      forall_mem_snapshots_next hkind fun snapshot hsnapshot ↦
        (snapshot.kind_perform command).trans hsnapshot
    obtain ⟨hname, hsetup⟩ := turtle.name_setup_next command
    have hrest := ih hnext
    rw [hname, hsetup] at hrest
    rw [outlines, drawnPaths, hrest]
    by_cases hlift : command = .penUp
    · subst hlift
      rw [finished_penUp]
      by_cases hpath : 1 < turtle.live.path.size
      · have hlive : turtle.live.kind = kind := hkind _ List.mem_cons_self
        rw [if_pos hpath, if_pos ⟨rfl, hpath⟩, List.map_cons, outline_eq_outlineOf hlive]
        rfl
      · rw [if_neg hpath, if_neg fun hdrawn ↦ hpath hdrawn.2]
        rfl
    · rw [turtle.finished_of_ne_penUp hlift, if_neg fun hdrawn ↦ hlift hdrawn.1]
      rfl

end Turtle

/-- A path of two points or more makes a polyline through its points. -/
theorem Polyline.exists_ofPoints {path : List Point} (h : 2 ≤ path.length) :
    ∃ polyline, Polyline.ofPoints path.toArray = .ok polyline ∧
      polyline.points.toList = path := by
  have hsize : 2 ≤ path.toArray.size := by rwa [List.size_toArray]
  rw [ofPoints, dif_pos hsize]
  exact ⟨_, rfl, rfl⟩

/-- The accounts of the curves of a new turtle, for all commands, also refused ones and those of the
stack.

On any canvas, observing the calls changes nothing. The handles are the answers to the calls, in
their order, and more commands only add to them. The calls are made for the outlines of the drawn
paths, which have two points or more, and there is one event for each of them with its number of
points. A command that does not lift the pen makes no call. One that lifts it over fewer than two
points returns nothing and makes no call; over two or more it makes one call, with the live path,
and returns the answer.

A sketchbook, be it the plotter's own or a lent one, answers with the places that follow those of
the outlines that were in it before. The outline at such a place stays there, its points are those
of the path, and they make a polyline. -/
theorem curve_accounts_agree (name : String) (kind : CurveKind) (setup : Setup)
    (commands : List Command) :
    let start := Turtle.initial name kind setup
    let paths := start.drawnPaths commands
    (∀ {σ η : Type} [Canvas σ η] (canvas : σ),
      let plotter : Plotter σ η := { turtle := start, canvas := canvas }
      let last := plotter.attemptAll commands
      let path := last.turtle.live.path.toList
      (plotter.observed.attemptAll commands).seenThrough (·.canvas) = last ∧
      last.handles.toList = (plotter.calls commands).map (·.handle) ∧
      (∀ further,
        last.handles.toList <+: (plotter.attemptAll (commands ++ further)).handles.toList) ∧
      (plotter.calls commands).map (·.outline) = paths.map (setup.outlineOf name kind) ∧
      (∀ drawn ∈ paths, 2 ≤ drawn.length) ∧
      plotter.events commands = paths.map (fun drawn ↦ .created name drawn.length kind) ∧
      (∀ command, command ≠ .penUp →
        plotter.calls (commands ++ [command]) = plotter.calls commands) ∧
      (path.length < 2 ∧ (last.attempt .penUp).result = .ok none ∧
          plotter.calls (commands ++ [.penUp]) = plotter.calls commands ∨
        2 ≤ path.length ∧ ∃ handle, (last.attempt .penUp).result = .ok (some handle) ∧
          plotter.calls (commands ++ [.penUp]) =
            plotter.calls commands ++ [⟨setup.outlineOf name kind path, handle⟩])) ∧
    ∀ book : Sketchbook,
      let plotter : Plotter Sketchbook Nat := { turtle := start, canvas := book }
      let lent : Plotter (Lent Sketchbook) Nat := { turtle := start, canvas := ⟨book⟩ }
      (lent.attemptAll commands).seenThrough (·.canvas) = plotter.attemptAll commands ∧
      (plotter.attemptAll commands).handles.toList =
        List.range' book.outlines.size paths.length ∧
      ∀ index path, paths[index]? = some path →
        ∃ outline : Outline, outline.points = path ∧
          (∃ polyline, Polyline.ofPoints outline.points.toArray = .ok polyline ∧
            polyline.points.toList = path) ∧
          ∀ further, (plotter.attemptAll (commands ++ further)).canvas.outlines[
            book.outlines.size + index]? = some outline := by
  intro start paths
  have houtlines : ∀ commands, start.outlines commands =
      (start.drawnPaths commands).map (setup.outlineOf name kind) := fun commands ↦
    Turtle.outlines_eq_map_drawnPaths (Turtle.kind_of_mem_snapshots_after []) commands
  refine ⟨fun {σ η} _ canvas ↦ ?_, fun book ↦ ?_⟩
  · intro plotter last path
    have hhandles : ∀ commands, (plotter.attemptAll commands).handles.toList =
        (plotter.calls commands).map (·.handle) := fun commands ↦
      (plotter.calls_spec commands).2
    have houtline : last.turtle.outline last.turtle.live.path =
        setup.outlineOf name kind path := by
      have hlast : last.turtle = start.after commands := plotter.turtle_attemptAll commands
      obtain ⟨hname, hsetup⟩ := start.name_setup_after commands
      rw [← hlast] at hname hsetup
      have hkind : last.turtle.live.kind = kind := by
        rw [hlast]
        exact Turtle.kind_of_mem_snapshots_after commands _ List.mem_cons_self
      rw [Turtle.outline_eq_outlineOf hkind, hname, hsetup]
      rfl
    refine ⟨plotter.seenThrough_observed commands, hhandles commands, ?_, ?_, ?_, ?_, ?_, ?_⟩
    · intro further
      rw [hhandles, hhandles]
      exact (plotter.calls_prefix commands further).map _
    · rw [(plotter.calls_spec commands).1, houtlines]
    · intro drawn hdrawn
      exact Turtle.two_le_length_of_mem_drawnPaths hdrawn
    · rw [plotter.events_eq, houtlines, List.map_map]
      apply List.map_congr_left
      intro drawn _
      rw [Function.comp_apply, Setup.pointCount_outlineOf]
      rfl
    · intro command hcommand
      exact plotter.calls_concat_of_ne_penUp commands hcommand
    · rw [← houtline]
      exact plotter.penUp_cases commands
  · intro plotter lent
    refine ⟨lent.attemptAll_seenThrough Lent.shows commands, ?_, ?_⟩
    · rw [(plotter.attemptAll_sketchbook commands).2, houtlines, List.length_map]
      exact List.nil_append _
    · intro index path hpath
      have hdrawn : 2 ≤ path.length :=
        Turtle.two_le_length_of_mem_drawnPaths (List.mem_of_getElem? hpath)
      refine ⟨setup.outlineOf name kind path, setup.points_outlineOf name kind path, ?_, ?_⟩
      · rw [setup.points_outlineOf]
        exact Polyline.exists_ofPoints hdrawn
      · intro further
        apply plotter.getElem?_sketchbook
        rw [houtlines, List.getElem?_map, hpath]
        rfl

/-- A curve that is drawn on a branch is not taken back with it. The sketchbook has one outline in
the beginning; the branch adds a second one, a pop too many is refused, and the third outline goes
on from where the branch began. -/
theorem curve_of_branch_is_kept :
    let book : Sketchbook := ⟨#[default]⟩
    let plotter : Plotter Sketchbook Nat := { turtle := .initial "tree" .nurbs {}, canvas := book }
    let commands : List Command :=
      [.penDown, .forward 1, .push, .turn 1, .penUp, .pop, .pop, .forward 1, .penUp]
    (plotter.attemptAll commands).handles.toList = [1, 2] ∧
      plotter.events commands = [.created "tree" 3 .nurbs, .created "tree" 3 .nurbs] ∧
      ∃ outline : Outline, outline.points.length = 3 ∧
        (∃ polyline, Polyline.ofPoints outline.points.toArray = .ok polyline) ∧
        ∀ further, (plotter.attemptAll (commands ++ further)).canvas.outlines[1]? =
          some outline := by
  intro book plotter commands
  obtain ⟨hcanvas, hbook⟩ := curve_accounts_agree "tree" .nurbs {} commands
  obtain ⟨-, -, -, -, -, hevents, -⟩ := hcanvas book
  obtain ⟨-, hhandles, hplaces⟩ := hbook book
  refine ⟨hhandles, hevents, ?_⟩
  obtain ⟨outline, hpoints, ⟨polyline, hpolyline, -⟩, hstays⟩ := hplaces 0 _ rfl
  refine ⟨outline, ?_, ⟨polyline, hpolyline⟩, hstays⟩
  rw [hpoints]
  rfl

end Lindenmayer
