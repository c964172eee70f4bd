import Lindenmayer.Proofs.Single.Circle
import Lindenmayer.Proofs.Turtle.CurveAccount
import Lindenmayer.Proofs.Turtle.Headings

/-!
# The turtle never leaves its plane

A turtle draws in space, but it never rises or sinks: all its points keep the third coordinate of
the origin, also when the other two overflow.

The direction of a heading is the first axis, turned by a rotor about the upward axis. The third
coordinate of a turned vector is a sum of products, and for this rotor each of them has a zero as a
factor (`Rotor.within_z_rotate_unitX`). In single precision that is not enough, because a zero times
an infinity is not a number. So the other factors have to be finite, which they are because sines
and cosines lie within one, and the heading has to be finite too. Nothing else is asked of sines and
cosines (`Trigonometry.IsBounded`). It is, as long as the turtle turns
by finite angles, since headings are wrapped (`isHeading_perform`). A finite distance times a zero
is a zero, and adding it leaves the third coordinate alone.

`Snapshot.KeepsHeight` is what a command preserves (`Snapshot.KeepsHeight.perform`). It holds of all
snapshots of a run (`keepsHeight_of_mem_snapshots_after`) and passes to the curves, because every
outline is that of the live path of a turtle on the way (`Turtle.exists_of_mem_outlines`).
-/

set_option autoImplicit false

namespace Lindenmayer

open Single

/-! ### Directions -/

/-- A rotor about the upward axis turns the first axis within the plane. -/
theorem Rotor.within_z_rotate_unitX {rotor : Rotor Float32} (hx : Within 0 rotor.x)
    (hy : Within 0 rotor.y) (hz : Within 1 rotor.z) (hw : Within 1 rotor.w) :
    Within 0 (rotor.rotate Vector3.unitX).z := by
  have htwo : Within 2 (2 : Float32) := ⟨rfl, by decide +kernel⟩
  have hsquares : Within 1 ((rotor.x * rotor.x + rotor.y * rotor.y) + rotor.z * rotor.z) :=
    ((hx.mul hx (by norm_num)).add (hy.mul hy (by norm_num)) (by norm_num)).add
      (hz.mul hz (by norm_num)) (by norm_num)
  have hupright : Within 0 ((1 * rotor.x + 0 * rotor.y) + 0 * rotor.z) :=
    ((within_one.mul hx (by norm_num)).add (within_zero.mul hy (by norm_num)) (by norm_num)).add
      (within_zero.mul hz (by norm_num)) (by norm_num)
  have hcross : Within 0 (rotor.x * 0 - 1 * rotor.y) :=
    (hx.mul within_zero (by norm_num)).sub (within_one.mul hy (by norm_num)) (by norm_num)
  have hdifference := (hw.mul hw (by norm_num)).sub hsquares (by norm_num)
  have hfirst := within_zero_mul within_zero hdifference.isFinite
  have hsecond := hz.mul (hupright.mul htwo (by norm_num)) (by norm_num)
  have hthird := hcross.mul (hw.mul htwo (by norm_num)) (by norm_num)
  exact (hfirst.add hsecond (by norm_num)).add hthird (by norm_num)

/-- Half of a finite number is finite. -/
theorem isFinite_half {number : Float32} (hfinite : number.isFinite = true) :
    (number * 0.5).isFinite = true := by
  have hhalf : value 0.5 = 1 / 2 := by decide +kernel
  have hround := isRounded_mul hfinite (show (0.5 : Float32).isFinite = true from rfl)
  refine (hround.of_abs_lt ?_).1
  have hle := abs_value_le number
  rw [hhalf, abs_mul]
  rw [largest] at hle
  norm_num at hle ⊢
  linarith

/-- Sines and cosines of finite angles lie between minus one and one. -/
class Trigonometry.IsBounded [Trigonometry] : Prop where
  within_sin {angle : Float32} : angle.isFinite = true → Within 1 (Trigonometry.sin angle)
  within_cos {angle : Float32} : angle.isFinite = true → Within 1 (Trigonometry.cos angle)

/-- Sines and cosines that are rounded once lie between minus one and one. -/
instance : Trigonometry.IsBounded := ⟨within_sin, within_cos⟩

section

variable [Trigonometry]

/-- The direction of a finite heading is level. -/
theorem within_z_direction [Trigonometry.IsBounded] {heading : Float32}
    (hfinite : heading.isFinite = true) :
    Within 0 (direction heading).z := by
  have hhalf := isFinite_half hfinite
  exact Rotor.within_z_rotate_unitX within_zero within_zero
    (Trigonometry.IsBounded.within_sin hhalf) (Trigonometry.IsBounded.within_cos hhalf)

/-! ### Snapshots -/

/-- A point has its third coordinate at a height. -/
structure Vector3.AtHeight (height : ℚ) (point : Point) : Prop where
  isFinite : point.z.isFinite = true
  value_eq : value point.z = height

omit [Trigonometry] in
/-- A level move does not change the height. -/
theorem Vector3.AtHeight.add_scale {height : ℚ} {point : Point} (h : point.AtHeight height)
    {direction : Point} (hlevel : Single.Within 0 direction.z) {distance : Float32}
    (hfinite : distance.isFinite = true) : (point + direction.scale distance).AtHeight height := by
  obtain ⟨hsum, hvalue⟩ := add_within_zero h.isFinite (within_zero_mul hlevel hfinite)
  exact ⟨hsum, hvalue.trans h.value_eq⟩

namespace Snapshot

/-- Only moving changes a position. -/
theorem position_perform (snapshot : Snapshot) (command : Command) :
    (snapshot.perform command).position =
      match command with
      | .forward distance => snapshot.position + snapshot.direction.scale distance
      | _ => snapshot.position := by
  cases command with
  | forward distance => rw [perform, forward_eq]
  | turn angle => rw [perform, turn_eq]
  | penDown => rw [perform, lowerPen_eq]
  | penUp => rw [perform, liftPen_eq]
  | push | pop | ignore => rfl

/-- The only point that a command can bring to the path is the position after it. -/
theorem mem_path_perform {snapshot : Snapshot} {command : Command} {point : Point}
    (h : point ∈ (snapshot.perform command).path) :
    point ∈ snapshot.path ∨ point = (snapshot.perform command).position := by
  cases command with
  | forward distance =>
    rw [perform, forward_eq] at h ⊢
    split at h
    · exact Array.mem_push.mp h
    · exact .inl h
  | turn angle =>
    rw [perform, turn_eq] at h ⊢
    split at h
    · exact Array.mem_push.mp h
    · exact .inl h
  | penDown =>
    rw [perform, lowerPen_eq] at h ⊢
    split at h
    · exact .inl h
    · exact .inr (Array.mem_singleton.mp h)
  | penUp =>
    rw [perform, liftPen_eq] at h ⊢
    split at h
    · exact .inr (Array.mem_singleton.mp h)
    · exact .inl h
  | push | pop | ignore => exact .inl h

/-- A snapshot has its position and all points of its path at a height, and its direction is that of
a heading. -/
structure KeepsHeight (height : ℚ) (snapshot : Snapshot) : Prop where
  heading : IsHeading snapshot.heading
  position : snapshot.position.AtHeight height
  path : ∀ point ∈ snapshot.path, point.AtHeight height

omit [Trigonometry] in
theorem keepsHeight_initial {origin : Point} (hfinite : origin.z.isFinite = true)
    (kind : CurveKind) : (initial origin kind).KeepsHeight (value origin.z) where
  heading := isHeading_zero
  position := ⟨hfinite, rfl⟩
  path point hpoint := by
    rw [Array.mem_singleton.mp hpoint]
    exact ⟨hfinite, rfl⟩

/-- A command that moves by a finite distance, or turns by a finite angle, or does neither, keeps
the height. -/
theorem KeepsHeight.perform [Trigonometry.IsBounded] {height : ℚ} {snapshot : Snapshot}
    (h : snapshot.KeepsHeight height) {command : Command}
    (hforward : ∀ distance, command = .forward distance → distance.isFinite = true)
    (hturn : ∀ angle, command = .turn angle → angle.isFinite = true) :
    (snapshot.perform command).KeepsHeight height := by
  have hposition : (snapshot.perform command).position.AtHeight height := by
    rw [position_perform]
    cases command with
    | forward distance =>
      exact h.position.add_scale (within_z_direction h.heading.isFinite) (hforward distance rfl)
    | _ => exact h.position
  refine ⟨isHeading_perform h.heading hturn, hposition, fun point hpoint ↦ ?_⟩
  rcases mem_path_perform hpoint with hold | rfl
  · exact h.path point hold
  · exact hposition

end Snapshot

/-! ### Runs and their curves -/

/-- An outline that is finished on the way is that of the live path where it is finished. -/
theorem Turtle.exists_of_mem_outlines {turtle : Turtle} {commands : List Command}
    {outline : Outline} (h : outline ∈ turtle.outlines commands) :
    ∃ first, first <+: commands ∧
      outline = (turtle.after first).outline (turtle.after first).live.path := by
  induction commands generalizing turtle with
  | nil => cases h
  | cons command commands ih =>
    rw [outlines] at h
    rcases List.mem_append.mp h with hfinished | hrest
    · refine ⟨[], List.nil_prefix, ?_⟩
      by_cases hlift : command = .penUp
      · subst hlift
        rw [finished_penUp] at hfinished
        split at hfinished
        · exact List.mem_singleton.mp hfinished
        · cases hfinished
      · rw [turtle.finished_of_ne_penUp hlift] at hfinished
        cases hfinished
    · obtain ⟨first, hfirst, houtline⟩ := ih hrest
      exact ⟨command :: first, List.cons_prefix_cons.mpr ⟨rfl, hfirst⟩, houtline⟩

/-- All commands of a list that move or turn do it by finite measures. -/
structure FiniteMeasures (commands : List Command) : Prop where
  forward : ∀ distance, Command.forward distance ∈ commands → distance.isFinite = true
  turn : ∀ angle, Command.turn angle ∈ commands → angle.isFinite = true

omit [Trigonometry] in
theorem FiniteMeasures.of_prefix {first commands : List Command} (h : FiniteMeasures commands)
    (hfirst : first <+: commands) : FiniteMeasures first :=
  ⟨fun distance hmem ↦ h.forward distance (hfirst.mem hmem),
    fun angle hmem ↦ h.turn angle (hfirst.mem hmem)⟩

/-- Every snapshot of a new turtle keeps the height of the origin. -/
theorem keepsHeight_of_mem_snapshots_after [Trigonometry.IsBounded] (name : String)
    (kind : CurveKind) {setup : Setup}
    (horigin : setup.origin.z.isFinite = true) {commands : List Command}
    (hfinite : FiniteMeasures commands) :
    ∀ snapshot ∈ ((Turtle.initial name kind setup).after commands).snapshots,
      snapshot.KeepsHeight (value setup.origin.z) := by
  apply Turtle.forall_mem_snapshots_after
  · intro snapshot hsnapshot
    rw [List.mem_singleton.mp hsnapshot]
    exact Snapshot.keepsHeight_initial horigin kind
  · intro command hcommand snapshot hkeeps
    exact hkeeps.perform (fun distance hforward ↦ hfinite.forward distance (hforward ▸ hcommand))
      fun angle hturn ↦ hfinite.turn angle (hturn ▸ hcommand)

variable {σ η : Type} [Canvas σ η]

/-- The turtle never leaves its plane. Along any commands whose distances and angles are finite,
those of the pen and of the stack included, the positions of the live snapshot and of the saved
ones, all points of their paths, and all points of the outlines that go to the canvas have a third
coordinate that is equal to that of the origin. Nothing is assumed of the first two coordinates,
which may overflow.

Assumes: sines and cosines of finite angles lie between minus one and one; the third coordinate of
the origin is finite; no distance and no angle is infinite or not a number. -/
theorem turtle_never_leaves_plane [Trigonometry.IsBounded] (name : String) (kind : CurveKind)
    (setup : Setup) (canvas : σ) (commands : List Command) (horigin : setup.origin.z.isFinite = true)
    (hforward : ∀ distance, Command.forward distance ∈ commands → distance.isFinite = true)
    (hturn : ∀ angle, Command.turn angle ∈ commands → angle.isFinite = true) :
    let start : Plotter σ η := { turtle := .initial name kind setup, canvas := canvas }
    let turtle := (start.attemptAll commands).turtle
    (∀ snapshot ∈ turtle.live :: turtle.saved,
      (snapshot.position.z == setup.origin.z) = true ∧
        ∀ point ∈ snapshot.path, (point.z == setup.origin.z) = true) ∧
      ∀ call ∈ start.calls commands, ∀ point ∈ call.outline.points,
        (point.z == setup.origin.z) = true := by
  intro start turtle
  have hfinite : FiniteMeasures commands := ⟨hforward, hturn⟩
  have hequal {point : Point} (h : point.AtHeight (value setup.origin.z)) :
      (point.z == setup.origin.z) = true := (beq_iff h.isFinite horigin).mpr h.value_eq
  constructor
  · have hturtle : turtle = (Turtle.initial name kind setup).after commands :=
      start.turtle_attemptAll commands
    intro snapshot hsnapshot
    rw [hturtle] at hsnapshot
    have hkeeps := keepsHeight_of_mem_snapshots_after name kind horigin hfinite snapshot hsnapshot
    exact ⟨hequal hkeeps.position, fun point hpoint ↦ hequal (hkeeps.path point hpoint)⟩
  · intro call hcall point hpoint
    have houtline : call.outline ∈ (Turtle.initial name kind setup).outlines commands := by
      rw [← (start.calls_spec commands).1]
      exact List.mem_map_of_mem hcall
    obtain ⟨first, hfirst, hpath⟩ := Turtle.exists_of_mem_outlines houtline
    have hkeeps := keepsHeight_of_mem_snapshots_after name kind horigin (hfinite.of_prefix hfirst) _
      List.mem_cons_self
    rw [hpath, Turtle.points_outline] at hpoint
    exact hequal (hkeeps.path point (Array.mem_toList_iff.mp hpoint))

end

/-- Two moves by the largest single take the first coordinate out of the singles, so that a curve is
drawn to an infinitely distant point; the branch in between is left with a turn. All of this happens
at the height of the origin. -/
theorem overflow_stays_in_plane :
    let far : Float32 := .ofBits 0x7f7fffff
    let setup : Setup := { origin := ⟨1, 2, 3⟩ }
    let commands : List Command :=
      [.penDown, .forward far, .push, .turn 1, .forward 2, .pop, .forward far, .penUp]
    let start : Plotter Sketchbook Nat := { turtle := .initial "arrow" .poly setup, canvas := {} }
    let turtle := (start.attemptAll commands).turtle
    setup.origin.z.isFinite = true ∧
      (∀ distance, Command.forward distance ∈ commands → distance.isFinite = true) ∧
      (∀ angle, Command.turn angle ∈ commands → angle.isFinite = true) ∧
      turtle.live.position.x.isFinite = false ∧ (turtle.live.position.z == 3) = true ∧
      (start.calls commands).map (·.outline.points.length) = [3] ∧
      ∀ call ∈ start.calls commands, ∀ point ∈ call.outline.points, (point.z == 3) = true := by
  intro far setup commands start turtle
  have horigin : setup.origin.z.isFinite = true := by decide +kernel
  have hforward : ∀ distance, Command.forward distance ∈ commands → distance.isFinite = true := by
    intro distance hdistance
    simp only [commands, List.mem_cons, List.not_mem_nil, Command.forward.injEq, reduceCtorEq,
      false_or, or_false] at hdistance
    rcases hdistance with rfl | rfl | rfl
    · decide +kernel
    · rfl
    · decide +kernel
  have hturn : ∀ angle, Command.turn angle ∈ commands → angle.isFinite = true := by
    intro angle hangle
    simp only [commands, List.mem_cons, List.not_mem_nil, Command.turn.injEq, reduceCtorEq,
      false_or, or_false] at hangle
    rw [hangle]
    rfl
  obtain ⟨hsnapshots, hcalls⟩ :=
    turtle_never_leaves_plane "arrow" .poly setup ({} : Sketchbook) commands horigin hforward hturn
  refine ⟨horigin, hforward, hturn, ?_, (hsnapshots _ List.mem_cons_self).1, ?_, hcalls⟩
  · decide +kernel
  · decide +kernel

end Lindenmayer
