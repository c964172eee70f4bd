import Lindenmayer.Proofs.Turtle.CurveAccount

/-!
# Coherent snapshots

The pen and the path of a snapshot belong together: with the pen up there is one point on the path,
and with the pen down the path ends where the turtle is. `Snapshot.Coherent` says so. In particular
there is always a point on the path.

Lifting the pen has to restore this, because it clears the pen first and looks at the path
afterwards, and popping has to, because it brings back a snapshot that was saved with the pen up or
down. `Snapshot.Coherent.perform` is the step for one snapshot, with one case for each command;
`Turtle.Sound` adds the bound on the depth, `Turtle.Sound.next` is the step of a whole turtle and
`Turtle.Sound.after` the run. `Plotter.snapshots_coherent` is what follows for a new turtle on any
canvas.
-/

set_option autoImplicit false

namespace Lindenmayer

/-! ### One snapshot -/

namespace Snapshot

/-- The pen and the path of a snapshot agree. -/
structure Coherent (snapshot : Snapshot) : Prop where
  /-- With the pen up, the path has one point. -/
  size_of_raised : snapshot.penDown = false → snapshot.path.size = 1
  /-- With the pen down, the path ends at the position. -/
  back_of_lowered : snapshot.penDown = true → snapshot.path.back? = some snapshot.position

theorem coherent_initial (origin : Point) (kind : CurveKind) : (initial origin kind).Coherent :=
  ⟨fun _ ↦ rfl, nofun⟩

theorem Coherent.size_pos {snapshot : Snapshot} (h : snapshot.Coherent) :
    0 < snapshot.path.size := by
  cases hpen : snapshot.penDown with
  | false =>
    rw [h.size_of_raised hpen]
    exact Nat.one_pos
  | true =>
    have hback := h.back_of_lowered hpen
    refine Nat.pos_of_ne_zero fun hempty ↦ ?_
    rw [Array.size_eq_zero_iff.mp hempty] at hback
    cases hback

/-- A coherent snapshot is coherent after every command. -/
theorem Coherent.perform {snapshot : Snapshot} (h : snapshot.Coherent) (command : Command) :
    (snapshot.perform command).Coherent := by
  cases command with
  | forward distance =>
    rw [Snapshot.perform, forward_eq]
    refine ⟨fun hpen ↦ ?_, fun hpen ↦ ?_⟩
    · simpa [show snapshot.penDown = false from hpen] using h.size_of_raised hpen
    · simp [show snapshot.penDown = true from hpen]
  | turn angle =>
    rw [Snapshot.perform, turn_eq]
    refine ⟨fun hpen ↦ ?_, fun hpen ↦ ?_⟩
    · simpa [show snapshot.penDown = false from hpen] using h.size_of_raised hpen
    · by_cases hanchors : snapshot.kind.anchorsCorners = true
      · simp [show snapshot.penDown = true from hpen, hanchors]
      · simpa [hanchors] using h.back_of_lowered hpen
  | penDown =>
    rw [Snapshot.perform, lowerPen_eq]
    refine ⟨fun hraised ↦ absurd hraised.symm Bool.false_ne_true, fun _ ↦ ?_⟩
    by_cases hpen : snapshot.penDown = true
    · simpa [hpen] using h.back_of_lowered hpen
    · simp [hpen]
  | penUp =>
    rw [Snapshot.perform, liftPen_eq]
    refine ⟨fun _ ↦ ?_, fun hlowered ↦ absurd hlowered Bool.false_ne_true⟩
    by_cases hpath : 1 < snapshot.path.size
    · simp [hpath]
    · have hpos := h.size_pos
      simp only [if_neg hpath]
      omega
  | push | pop | ignore => exact h

end Snapshot

/-! ### A whole turtle -/

namespace Turtle

/-- All snapshots of a turtle are coherent, and there are no more of them than its setup allows. A
turtle always has its live snapshot, also if the setup allows none. -/
structure Sound (turtle : Turtle) : Prop where
  coherent : ∀ snapshot ∈ turtle.snapshots, snapshot.Coherent
  depth_le : turtle.depth ≤ max 1 turtle.setup.maxDepth.toNat

theorem sound_initial (name : String) (kind : CurveKind) (setup : Setup) :
    (initial name kind setup).Sound where
  coherent snapshot hsnapshot := by
    rw [List.mem_singleton.mp hsnapshot]
    exact Snapshot.coherent_initial setup.origin kind
  depth_le := Nat.le_max_left 1 _

/-- No command takes the depth beyond its bound: a push needs room, and no other command adds to the
depth. -/
theorem depth_next_le {turtle : Turtle} (h : turtle.depth ≤ max 1 turtle.setup.maxDepth.toNat)
    (command : Command) :
    (turtle.next command).depth ≤ max 1 turtle.setup.maxDepth.toNat := by
  cases command with
  | forward _ | turn _ | penDown | penUp | ignore => exact h
  | push =>
    rw [next, carryOut_push]
    by_cases hfull : turtle.setup.maxDepth.toNat ≤ turtle.depth
    · rwa [if_pos hfull]
    · rw [if_neg hfull]
      exact Nat.le_trans (Nat.lt_of_not_le hfull) (Nat.le_max_right 1 _)
  | pop =>
    cases hsaved : turtle.saved with
    | nil => rwa [next, carryOut_pop_of_nil hsaved]
    | cons live saved =>
      rw [next_of_ok (carryOut_pop hsaved)]
      rw [depth, hsaved, List.length_cons] at h
      exact Nat.le_of_succ_le h

theorem Sound.next {turtle : Turtle} (h : turtle.Sound) (command : Command) :
    (turtle.next command).Sound where
  coherent := forall_mem_snapshots_next h.coherent fun _ hsnapshot ↦ hsnapshot.perform command
  depth_le := by
    rw [(turtle.name_setup_next command).2]
    exact depth_next_le h.depth_le command

theorem Sound.after {turtle : Turtle} (h : turtle.Sound) (commands : List Command) :
    (turtle.after commands).Sound := by
  induction commands generalizing turtle with
  | nil => exact h
  | cons command commands ih => exact ih (h.next command)

end Turtle

/-- Every snapshot that a new turtle ever has, live or saved, has a point on its path: one if the
pen is up, and with the pen down the last one is the position. It records for the kind of curve that
was given at the construction. There is at least one snapshot, and there are no more than the setup
allows, unless it allows none. This holds after all commands, also refused ones, and on any
canvas. -/
theorem Plotter.snapshots_coherent {σ η : Type} [Canvas σ η] (name : String) (kind : CurveKind)
    (setup : Setup) (canvas : σ) (commands : List Command) :
    let start : Plotter σ η := { turtle := .initial name kind setup, canvas := canvas }
    let turtle := (start.attemptAll commands).turtle
    (∀ snapshot ∈ turtle.live :: turtle.saved,
      0 < snapshot.path.size ∧
        (snapshot.penDown = false → snapshot.path.size = 1) ∧
        (snapshot.penDown = true → snapshot.path.back? = some snapshot.position) ∧
        snapshot.kind = kind) ∧
      1 ≤ turtle.depth ∧ turtle.depth ≤ max 1 setup.maxDepth.toNat := by
  intro start turtle
  have hturtle : turtle = (Turtle.initial name kind setup).after commands :=
    start.turtle_attemptAll commands
  have hsound : turtle.Sound := by
    rw [hturtle]
    exact (Turtle.sound_initial name kind setup).after commands
  have hsetup : turtle.setup = setup := by
    rw [hturtle]
    exact ((Turtle.initial name kind setup).name_setup_after commands).2
  refine ⟨fun snapshot hsnapshot ↦ ?_, Nat.succ_pos _, ?_⟩
  · have hcoherent := hsound.coherent snapshot hsnapshot
    refine ⟨hcoherent.size_pos, hcoherent.size_of_raised, hcoherent.back_of_lowered, ?_⟩
    rw [hturtle] at hsnapshot
    exact Turtle.kind_of_mem_snapshots_after commands snapshot hsnapshot
  · rw [← hsetup]
    exact hsound.depth_le

/-- On a stack of three, the second push is the last that is carried out. The snapshot that comes
back was saved with the pen down, so its path ends at its position although the pen was lifted on
the branch. The one that remains saved was saved with the pen up and has one point. -/
theorem Plotter.popped_path_ends_at_position :
    let start : Plotter Sketchbook Nat :=
      { turtle := .initial "tree" .nurbs { maxDepth := 3 }, canvas := {} }
    let commands : List Command :=
      [.push, .penDown, .forward 1, .push, .push, .turn 1, .penUp, .pop]
    let turtle := (start.attemptAll commands).turtle
    (turtle.live.penDown = true ∧ turtle.live.path.size = 2 ∧
        turtle.live.path.back? = some turtle.live.position) ∧
      (∃ below ∈ turtle.saved, below.penDown = false ∧ below.path.size = 1) ∧
      turtle.depth ≤ 3 := by
  intro start commands turtle
  obtain ⟨hsnapshots, -, hdepth⟩ :=
    snapshots_coherent "tree" .nurbs { maxDepth := 3 } ({} : Sketchbook) commands
  obtain ⟨-, -, hlowered, -⟩ := hsnapshots turtle.live List.mem_cons_self
  have hbelow : turtle.saved = [Snapshot.initial Vector3.zero .nurbs] := rfl
  have hsaved : Snapshot.initial Vector3.zero .nurbs ∈ turtle.saved := by
    rw [hbelow]
    exact List.mem_singleton_self _
  obtain ⟨-, hraised, -, -⟩ := hsnapshots _ (List.mem_cons_of_mem turtle.live hsaved)
  exact ⟨⟨rfl, rfl, hlowered rfl⟩, ⟨_, hsaved, rfl, hraised rfl⟩, hdepth⟩

end Lindenmayer
