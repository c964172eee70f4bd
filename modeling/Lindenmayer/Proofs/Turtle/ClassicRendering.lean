import Lindenmayer.Proofs.Grammar.ClassicTallies
import Lindenmayer.Proofs.Turtle.Coherence
import Lindenmayer.Proofs.Turtle.DrawnCurves
import Lindenmayer.Proofs.Turtle.Reading

/-!
# Rendering in one stroke

Drawing a classic grammar sets the pen down, reads the word of a generation and lifts the pen. The
alphabets of the dragon and the snowflake have a command for every symbol of these words, and none
of the commands lifts the pen or uses the stack (`Alphabet.Draws`). So the reading comes to its end
with the pen down, all it adds to the path is one point for each move and, for a kind that anchors
its corners, one for each turn, and the only curve is the one that is finished in the end.

`Snapshot.performAll_of_lowered` counts the points that commands record, `Alphabet.Draws.read`
is the reading, and `Classic.render_of_draws` the rendering. With the tallies of the generations
this gives the number of points of the dragon and the snowflake, whatever the turtle has done before
(`Classic.render_draws_one_curve`).
-/

set_option autoImplicit false

namespace Lindenmayer

/-! ### Recorded points -/

/-- How many points a command adds to the path of a turtle of this kind while its pen is down. -/
def Command.recorded (kind : CurveKind) : Command → Nat
  | forward _ => 1
  | turn _ => if kind.anchorsCorners then 1 else 0
  | penDown | penUp | push | pop | ignore => 0

namespace Snapshot

/-- The number of points on the path once the pen is down: all that are there if it is down already,
and otherwise one. -/
def loweredSize (snapshot : Snapshot) : Nat := if snapshot.penDown then snapshot.path.size else 1

theorem size_lowerPen (snapshot : Snapshot) :
    snapshot.lowerPen.path.size = snapshot.loweredSize := by
  rw [lowerPen_eq, loweredSize]
  split <;> rfl

theorem Coherent.loweredSize_pos {snapshot : Snapshot} (h : snapshot.Coherent) :
    0 < snapshot.loweredSize := by
  rw [loweredSize]
  split
  · exact h.size_pos
  · exact Nat.one_pos

/-- A pen that is down stays down unless it is lifted, and the path grows by what is recorded. -/
theorem perform_of_lowered {snapshot : Snapshot} (hpen : snapshot.penDown = true)
    {command : Command} (hkeep : command.isPenUp = false) :
    (snapshot.perform command).penDown = true ∧
      (snapshot.perform command).path.size =
        snapshot.path.size + command.recorded snapshot.kind := by
  cases command with
  | penUp => cases hkeep
  | forward distance =>
    rw [perform, forward_eq]
    simp [hpen, Command.recorded]
  | turn angle =>
    rw [perform, turn_eq]
    by_cases hanchors : snapshot.kind.anchorsCorners = true
    · simp [hpen, hanchors, Command.recorded]
    · simp [hpen, hanchors, Command.recorded]
  | penDown =>
    rw [perform, lowerPen_eq]
    simp [hpen, Command.recorded]
  | push | pop | ignore => exact ⟨hpen, rfl⟩

theorem performAll_of_lowered {snapshot : Snapshot} (hpen : snapshot.penDown = true)
    {commands : List Command} (hkeep : ∀ command ∈ commands, command.isPenUp = false) :
    (snapshot.performAll commands).penDown = true ∧
      (snapshot.performAll commands).path.size =
        snapshot.path.size + (commands.map (·.recorded snapshot.kind)).sum := by
  induction commands generalizing snapshot with
  | nil => exact ⟨hpen, rfl⟩
  | cons command commands ih =>
    obtain ⟨hcommand, hrest⟩ := List.forall_mem_cons.mp hkeep
    obtain ⟨hlowered, hsize⟩ := perform_of_lowered hpen hcommand
    obtain ⟨hlast, hlastSize⟩ := ih hlowered hrest
    refine ⟨hlast, hlastSize.trans ?_⟩
    rw [hsize, kind_perform, List.map_cons, List.sum_cons, Nat.add_assoc]

end Snapshot

/-! ### Plotters -/

namespace Plotter

variable {σ η : Type}

/-- The plotter with another live snapshot, on the same canvas and with the same snapshots saved. -/
def withLive (plotter : Plotter σ η) (live : Snapshot) : Plotter σ η :=
  plotter.withTurtle { plotter.turtle with live := live }

@[simp] theorem live_withLive (plotter : Plotter σ η) (live : Snapshot) :
    (plotter.withLive live).turtle.live = live := rfl

@[simp] theorem withLive_withLive (plotter : Plotter σ η) (first second : Snapshot) :
    (plotter.withLive first).withLive second = plotter.withLive second := rfl

variable [Canvas σ η]

/-- Commands that neither lift the pen nor use the stack draw nothing. -/
theorem attemptAll_of_not_isPenUp (plotter : Plotter σ η) {commands : List Command}
    (hplain : ∀ command ∈ commands, command.isStack = false)
    (hkeep : ∀ command ∈ commands, command.isPenUp = false) :
    plotter.attemptAll commands = plotter.withLive (plotter.turtle.live.performAll commands) := by
  induction commands generalizing plotter with
  | nil => rfl
  | cons command commands ih =>
    obtain ⟨hcommand, hrest⟩ := List.forall_mem_cons.mp hplain
    obtain ⟨hdown, hdownRest⟩ := List.forall_mem_cons.mp hkeep
    show (plotter.attempt command).plotter.attemptAll commands = _
    rw [plotter.attempt_of_finished_eq_none hcommand
      (plotter.turtle.finished_of_not_isPenUp hdown), ih _ hrest hdownRest,
      plotter.turtle.next_of_not_isStack hcommand]
    rfl

/-- Lifting the pen over a path of two points or more draws the path and begins a new one. -/
theorem liftPen_withLive (plotter : Plotter σ η) {live : Snapshot}
    (hkind : live.kind = plotter.turtle.live.kind) (hpath : 1 < live.path.size) :
    let lifted := (plotter.withLive live).liftPen
    let drawn := Canvas.draw plotter.canvas (plotter.turtle.outline live.path)
    lifted.plotter.turtle =
        { plotter.turtle with
          live := { live with penDown := false, path := #[live.position] } } ∧
      lifted.plotter.canvas = drawn.1 ∧ lifted.plotter.handles = plotter.handles.push drawn.2 ∧
      lifted.handle = some drawn.2 := by
  intro lifted drawn
  have hlive : live.liftPen =
      ({ live with penDown := false, path := #[live.position] }, some live.path) := by
    rw [Snapshot.liftPen_eq, if_pos hpath, if_pos hpath]
  have hturtle : (plotter.withLive live).turtle.liftPen =
      ({ plotter.turtle with live := { live with penDown := false, path := #[live.position] } },
        some (plotter.turtle.outline live.path)) := by
    simp only [withLive, withTurtle, Turtle.liftPen, hlive, Turtle.outline, Turtle.curveName, hkind,
      Option.map_some]
  have hlifted : lifted = ((plotter.withLive live).withTurtle
      { plotter.turtle with live := { live with penDown := false, path := #[live.position] } }).draw
        (plotter.turtle.outline live.path) := by
    show (plotter.withLive live).liftPen = _
    rw [liftPen, hturtle]
  rw [hlifted]
  exact ⟨rfl, rfl, rfl, rfl⟩

end Plotter

/-! ### Readings that draw -/

namespace Alphabet

variable {σ η : Type} [Canvas σ η] {alphabet : Alphabet} {symbols : List Char} {word : Word}

/-- An alphabet draws symbols if it moves at `F`, turns at `+` and at `-`, and has for all others a
command that records nothing. No command lifts the pen or uses the stack. -/
def Draws (alphabet : Alphabet) (symbols : List Char) : Prop :=
  ∀ symbol ∈ symbols, ∃ command, alphabet.commands.get? symbol = some command ∧
    command.isStack = false ∧ command.isPenUp = false ∧
      ∀ kind : CurveKind, command.recorded kind =
        moveWeight symbol + if kind.anchorsCorners then turnWeight symbol else 0

/-- The commands that are carried out for symbols that are drawn. -/
theorem Draws.of_mem_commandsOf (h : alphabet.Draws symbols) (hword : word ⊆ symbols)
    {command : Command} (hcommand : command ∈ alphabet.commandsOf word) :
    command.isStack = false ∧ command.isPenUp = false := by
  obtain ⟨symbol, hsymbol, hget⟩ := List.mem_filterMap.mp hcommand
  obtain ⟨other, hother, hstack, hkeep, -⟩ := h symbol (hword hsymbol)
  rw [hget] at hother
  obtain rfl := Option.some.inj hother
  exact ⟨hstack, hkeep⟩

/-- The points that are recorded for a word that is drawn are tallied. -/
theorem Draws.sum_recorded (h : alphabet.Draws symbols) (hword : word ⊆ symbols)
    (kind : CurveKind) :
    ((alphabet.commandsOf word).map (·.recorded kind)).sum =
      tally moveWeight word + if kind.anchorsCorners then tally turnWeight word else 0 := by
  induction word with
  | nil => cases kind <;> rfl
  | cons symbol word ih =>
    obtain ⟨hsymbol, hrest⟩ := List.cons_subset.mp hword
    obtain ⟨command, hget, -, -, hrecorded⟩ := h symbol hsymbol
    rw [commandsOf, List.filterMap_cons_some hget, List.map_cons, List.sum_cons, ← commandsOf,
      ih hrest, hrecorded, tally_cons, tally_cons]
    by_cases hanchors : kind.anchorsCorners = true
    · simp only [if_pos hanchors]
      omega
    · simp only [if_neg hanchors]
      omega

/-- A word that is drawn is read to its end. -/
theorem Draws.exists_readFrom (h : alphabet.Draws symbols) (hword : word ⊆ symbols)
    (progress : Progress σ η) : ∃ last, alphabet.readFrom word progress = (last, none) := by
  induction word generalizing progress with
  | nil => exact ⟨progress, rfl⟩
  | cons symbol word ih =>
    obtain ⟨hsymbol, hrest⟩ := List.cons_subset.mp hword
    obtain ⟨command, hget, hstack, -⟩ := h symbol hsymbol
    obtain ⟨outline, hcarryOut⟩ := progress.plotter.turtle.carryOut_of_not_isStack hstack
    obtain ⟨next, hnext, -⟩ := obey_of_ok hcarryOut
    rw [← readSymbol_of_bound hget] at hnext
    rw [readFrom_cons_of_none word hnext]
    exact ih hrest next

/-- Reading a word that is drawn, with the pen down, changes nothing but the live snapshot, to whose
path it adds the tallied points. -/
theorem Draws.read (h : alphabet.Draws symbols) (hword : word ⊆ symbols) {plotter : Plotter σ η}
    (hpen : plotter.turtle.live.penDown = true) :
    (alphabet.read word plotter).failure = none ∧
      ∃ live : Snapshot, (alphabet.read word plotter).plotter = plotter.withLive live ∧
        live.kind = plotter.turtle.live.kind ∧
        live.path.size = plotter.turtle.live.path.size + (tally moveWeight word +
          if plotter.turtle.live.kind.anchorsCorners then tally turnWeight word else 0) := by
  obtain ⟨last, hlast⟩ := h.exists_readFrom hword { plotter }
  obtain ⟨hfailure, hplotter⟩ := read_of_readFrom hlast
  have hcommands : last.plotter = plotter.attemptAll (alphabet.commandsOf word) :=
    (readFrom_of_none hlast).1
  have hplain : ∀ command ∈ alphabet.commandsOf word, command.isStack = false :=
    fun _ hcommand ↦ (h.of_mem_commandsOf hword hcommand).1
  have hkeep : ∀ command ∈ alphabet.commandsOf word, command.isPenUp = false :=
    fun _ hcommand ↦ (h.of_mem_commandsOf hword hcommand).2
  refine ⟨hfailure, plotter.turtle.live.performAll (alphabet.commandsOf word), ?_, ?_, ?_⟩
  · rw [hplotter, hcommands, plotter.attemptAll_of_not_isPenUp hplain hkeep]
  · exact plotter.turtle.live.kind_performAll _
  · rw [(Snapshot.performAll_of_lowered hpen hkeep).2, h.sum_recorded hword]

end Alphabet

/-! ### Renderings -/

section

variable {σ η : Type} [Canvas σ η]

/-- A rendering that has drawn one curve of so many points and nothing else. Its result is the
handle of the curve, which is the last one now; the pen is up and nothing is left on the path but
the position, and the saved snapshots are what they were. -/
structure Rendering.IsOneCurve (rendering : Rendering σ η) (before : Plotter σ η) (points : Nat) :
    Prop where
  drawn : ∃ path : Array Point, (before.turtle.outline path).points.length = points ∧
    rendering.plotter.canvas = (Canvas.draw before.canvas (before.turtle.outline path)).1 ∧
    rendering.plotter.handles =
      before.handles.push (Canvas.draw before.canvas (before.turtle.outline path)).2 ∧
    rendering.result = .ok (some (Canvas.draw before.canvas (before.turtle.outline path)).2)
  penDown_eq : rendering.plotter.turtle.live.penDown = false
  path_eq : rendering.plotter.turtle.live.path = #[rendering.plotter.turtle.live.position]
  saved_eq : rendering.plotter.turtle.saved = before.turtle.saved
  depth_eq : rendering.plotter.turtle.depth = before.turtle.depth

namespace Classic

variable {classic : Classic} {count : Nat} {alphabet : Alphabet} {symbols : List Char}

/-- A rendering is the reading of a generation between a lowering and a lifting of the pen, if the
reading comes to its end. -/
theorem render_of_read {plotter : Plotter σ η} (halphabet : classic.alphabet? count = some alphabet)
    (hread : (alphabet.read (classic.generation count)
      (plotter.withLive plotter.turtle.live.lowerPen)).failure = none) :
    let lifted := (alphabet.read (classic.generation count)
      (plotter.withLive plotter.turtle.live.lowerPen)).plotter.liftPen
    (classic.render count plotter).plotter = lifted.plotter ∧
      (classic.render count plotter).result = .ok lifted.handle := by
  have hlowered : plotter.withLive plotter.turtle.live.lowerPen =
      plotter.withTurtle plotter.turtle.lowerPen := rfl
  rw [hlowered] at hread ⊢
  rw [render, halphabet]
  simp only [result_derive, hread, and_self]

/-- Assumes: the alphabet draws the symbols of the generation, there is a move among these, and the
live snapshot is coherent. The generation is drawn as one curve of the tallied points. -/
theorem render_of_draws (halphabet : classic.alphabet? count = some alphabet)
    (hdraws : alphabet.Draws symbols) (hword : classic.generation count ⊆ symbols)
    (hmoves : 0 < tally moveWeight (classic.generation count)) {plotter : Plotter σ η}
    (hcoherent : plotter.turtle.live.Coherent) :
    (classic.render count plotter).IsOneCurve plotter
      (plotter.turtle.live.loweredSize + (tally moveWeight (classic.generation count) +
        if plotter.turtle.live.kind.anchorsCorners then
          tally turnWeight (classic.generation count) else 0)) := by
  have hpen : (plotter.withLive plotter.turtle.live.lowerPen).turtle.live.penDown = true := by
    rw [Plotter.live_withLive, Snapshot.lowerPen_eq]
  have hkind : plotter.turtle.live.lowerPen.kind = plotter.turtle.live.kind := by
    rw [Snapshot.lowerPen_eq]
  have hbefore := hcoherent.loweredSize_pos
  obtain ⟨hread, live, hplotter, hlive, hsize⟩ := hdraws.read hword hpen
  simp only [Plotter.live_withLive, Plotter.withLive_withLive, hkind, Snapshot.size_lowerPen]
    at hplotter hlive hsize
  obtain ⟨hrendered, hresult⟩ := render_of_read halphabet hread
  obtain ⟨hturtle, hcanvas, hhandles, hhandle⟩ := plotter.liftPen_withLive hlive (by omega)
  rw [hplotter] at hrendered hresult
  rw [← hrendered] at hturtle hcanvas hhandles
  rw [hhandle] at hresult
  refine ⟨⟨live.path, ?_, hcanvas, hhandles, hresult⟩, ?_, ?_, ?_, ?_⟩
  · rw [Turtle.points_outline, Array.length_toList, hsize]
  · rw [hturtle]
  · rw [hturtle]
  · rw [hturtle]
  · rw [hturtle, Turtle.depth, Turtle.depth]

/-- The dragon's alphabet draws the symbols of the dragon. -/
theorem draws_dragonCurve (count : Nat) :
    ∃ alphabet, dragonCurve.alphabet? count = some alphabet ∧ alphabet.Draws dragonSymbols := by
  refine ⟨_, rfl, fun symbol hsymbol ↦ ?_⟩
  simp only [dragonSymbols, List.mem_cons, List.not_mem_nil, or_false] at hsymbol
  rcases hsymbol with rfl | rfl | rfl | rfl | rfl <;>
    exact ⟨_, rfl, rfl, rfl, fun kind ↦ by cases kind <;> rfl⟩

/-- The snowflake's alphabet draws the symbols of the snowflake, with the step of any generation. -/
theorem draws_kochSnowflake (count : Nat) :
    ∃ alphabet, kochSnowflake.alphabet? count = some alphabet ∧
      alphabet.Draws snowflakeSymbols := by
  refine ⟨_, rfl, fun symbol hsymbol ↦ ?_⟩
  simp only [snowflakeSymbols, List.mem_cons, List.not_mem_nil, or_false] at hsymbol
  rcases hsymbol with rfl | rfl | rfl <;>
    exact ⟨_, rfl, rfl, rfl, fun kind ↦ by cases kind <;> rfl⟩

theorem anchorsCorners_eq_true_iff (kind : CurveKind) :
    kind.anchorsCorners = true ↔ kind = .nurbs := by
  cases kind <;> decide

/-- Drawing any generation of a classic grammar with a turtle that was new once and has carried out
any commands since, also refused ones. The dragon and the snowflake are drawn as one curve each. It
has the points that were on the path, or one if the pen was up, one more for each move and, for a
rational spline, one more for each turn. No other classic grammar is drawn, and for these the
plotter stays as it is. -/
theorem render_draws_one_curve (name : String) (kind : CurveKind) (setup : Setup) (canvas : σ)
    (commands : List Command) (count : Nat) :
    let start : Plotter σ η := { turtle := .initial name kind setup, canvas := canvas }
    let plotter := start.attemptAll commands
    let before := plotter.turtle.live.loweredSize
    (dragonCurve.render count plotter).IsOneCurve plotter
        (before + (2 ^ count + if kind = .nurbs then 2 * 2 ^ count - 2 else 0)) ∧
      (kochSnowflake.render count plotter).IsOneCurve plotter
        (before + (3 * 4 ^ count + if kind = .nurbs then 4 * 4 ^ count else 0)) ∧
      ∀ classic, classic = dragonCurve ∨ classic = kochSnowflake ∨
        classic.render count plotter = ⟨plotter, .ok none, []⟩ := by
  intro start plotter before
  have hturtle : plotter.turtle = (Turtle.initial name kind setup).after commands :=
    start.turtle_attemptAll commands
  have hkind : plotter.turtle.live.kind = kind := by
    rw [hturtle]
    exact Turtle.kind_of_mem_snapshots_after commands _ List.mem_cons_self
  have hcoherent : plotter.turtle.live.Coherent := by
    rw [hturtle]
    exact ((Turtle.sound_initial name kind setup).after commands).coherent _ List.mem_cons_self
  refine ⟨?_, ?_, fun classic ↦ ?_⟩
  · obtain ⟨alphabet, halphabet, hdraws⟩ := draws_dragonCurve count
    obtain ⟨-, hmoves, hturns⟩ := tallies_dragonCurve count
    have hpositive : 0 < tally moveWeight (dragonCurve.generation count) := by
      rw [hmoves]
      exact Nat.two_pow_pos count
    have hrendering := render_of_draws halphabet hdraws (generation_dragonCurve_subset count)
      hpositive hcoherent
    rw [hmoves, Nat.eq_sub_of_add_eq hturns, hkind] at hrendering
    simpa only [anchorsCorners_eq_true_iff] using hrendering
  · obtain ⟨alphabet, halphabet, hdraws⟩ := draws_kochSnowflake count
    obtain ⟨hmoves, hturns⟩ := tallies_kochSnowflake count
    have hpositive : 0 < tally moveWeight (kochSnowflake.generation count) := by
      rw [hmoves]
      exact Nat.mul_pos (by decide) (Nat.pow_pos (by decide))
    have hrendering := render_of_draws halphabet hdraws (generation_kochSnowflake_subset count)
      hpositive hcoherent
    rw [hmoves, hturns, hkind] at hrendering
    simpa only [anchorsCorners_eq_true_iff] using hrendering
  · cases classic with
    | dragonCurve => exact .inl rfl
    | kochSnowflake => exact .inr (.inl rfl)
    | algae | pythagorasTree | cantorSet | kochCurve | sierpinskiTriangle | sierpinskiCurve =>
      exact .inr (.inr rfl)

end Classic

end

end Lindenmayer
