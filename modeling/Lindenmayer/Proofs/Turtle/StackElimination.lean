import Lindenmayer.Proofs.Turtle.Course
import Mathlib.Data.List.Infix

/-!
# Stack elimination

What a turtle does between a push and the pop that belongs to it is lost to its live snapshot. So
the live snapshot after a list of commands can be had without any stack: `Command.reduce` deletes
every block from a push to its pop, with all that stands between them, and every push that has no
pop.

A list is matched from its right end. `Command.unmatchedPops` counts the pops that go back to before
the list, and a command is lost exactly if such a pop follows it. `Command.reduce_block`,
`Command.reduce_push` and `Command.reduce_of_not_isStack` say that this deletes blocks and pushes
without a pop, and nothing else. `Command.unclosed` lists the parts of the list before each push
without a pop.

`Turtle.endsFrom_after` is the invariant, for lists that may also pop what was saved before them:
the snapshot to which the last unmatched pop returns is the one that the reduced list goes on from.
`live_saved_eq_reduce` is the statement for lists that never return to before their start.
-/

set_option autoImplicit false

namespace Lindenmayer

/-! ### Matching -/

namespace Command

/-- How many pops of a list return to a snapshot that was saved before the list. -/
def unmatchedPops : List Command → Nat
  | [] => 0
  | push :: rest => unmatchedPops rest - 1
  | pop :: rest => unmatchedPops rest + 1
  | _ :: rest => unmatchedPops rest

/-- A list without its stack commands and without every command that an unmatched pop undoes later.
In a list whose pops are all matched, these are the commands of its blocks. -/
def reduce : List Command → List Command
  | [] => []
  | command :: rest =>
    if command.isStack = false ∧ unmatchedPops rest = 0 then command :: reduce rest
    else reduce rest

/-- The parts of a list before each of its pushes that has no pop, first to last. -/
def unclosed : List Command → List (List Command)
  | [] => []
  | command :: rest =>
    (if command = push ∧ unmatchedPops rest = 0 then [[]] else []) ++
      (unclosed rest).map (command :: ·)

/-- Lists in which every push has its pop and every pop its push. -/
inductive Matched : List Command → Prop
  | nil : Matched []
  | plain {command : Command} {rest : List Command} : command.isStack = false →
      Matched rest → Matched (command :: rest)
  | block {inner rest : List Command} : Matched inner → Matched rest →
      Matched (push :: (inner ++ pop :: rest))

theorem unmatchedPops_cons_of_not_isStack {command : Command} (h : command.isStack = false)
    (rest : List Command) : unmatchedPops (command :: rest) = unmatchedPops rest := by
  cases command with
  | push | pop => cases h
  | forward _ | turn _ | penDown | penUp | ignore => rfl

theorem unmatchedPops_pop_ne_zero (rest : List Command) : unmatchedPops (pop :: rest) ≠ 0 :=
  Nat.succ_ne_zero _

/-- Nothing of a stack command is left. -/
theorem reduce_cons_of_isStack {command : Command} (h : command.isStack = true)
    (rest : List Command) : reduce (command :: rest) = reduce rest := by
  rw [reduce, if_neg]
  rintro ⟨hplain, -⟩
  rw [h] at hplain
  cases hplain

/-- A command is left if it is not a stack command and no unmatched pop follows it. -/
theorem reduce_cons_of_eq_zero {command : Command} {rest : List Command}
    (hplain : command.isStack = false) (hrest : unmatchedPops rest = 0) :
    reduce (command :: rest) = command :: reduce rest := by
  rw [reduce, if_pos ⟨hplain, hrest⟩]

/-- A command is lost if an unmatched pop follows it. -/
theorem reduce_cons_of_ne_zero (command : Command) {rest : List Command}
    (hrest : unmatchedPops rest ≠ 0) : reduce (command :: rest) = reduce rest := by
  rw [reduce, if_neg]
  rintro ⟨-, hzero⟩
  exact hrest hzero

theorem unclosed_cons_of_ne_push {command : Command} (h : command ≠ push) (rest : List Command) :
    unclosed (command :: rest) = (unclosed rest).map (command :: ·) := by
  rw [unclosed, if_neg fun hpush ↦ h hpush.1, List.nil_append]

theorem unclosed_push_of_eq_zero {rest : List Command} (h : unmatchedPops rest = 0) :
    unclosed (push :: rest) = [] :: (unclosed rest).map (push :: ·) := by
  rw [unclosed, if_pos ⟨rfl, h⟩, List.singleton_append]

theorem unclosed_push_of_ne_zero {rest : List Command} (h : unmatchedPops rest ≠ 0) :
    unclosed (push :: rest) = (unclosed rest).map (push :: ·) := by
  rw [unclosed, if_neg fun hpush ↦ h hpush.2, List.nil_append]

/-- All unmatched pops of a list stand before each push without a pop. -/
theorem unmatchedPops_of_mem_unclosed {commands before : List Command}
    (h : before ∈ unclosed commands) : unmatchedPops before = unmatchedPops commands := by
  induction commands generalizing before with
  | nil => cases h
  | cons command rest ih =>
    rw [unclosed, List.mem_append, List.mem_map] at h
    rcases h with hfirst | ⟨part, hpart, rfl⟩
    · split at hfirst
      · rename_i hpush
        obtain ⟨rfl, hzero⟩ := hpush
        rw [List.mem_singleton.mp hfirst, unmatchedPops, unmatchedPops, hzero]
      · cases hfirst
    · have hcount := ih hpart
      cases command with
      | push | pop => rw [unmatchedPops, unmatchedPops, hcount]
      | forward _ | turn _ | penDown | penUp | ignore => exact hcount

/-! ### Blocks -/

/-- A matched list in front does not change which pops of a list are unmatched. -/
theorem Matched.unmatchedPops_append {first : List Command} (h : Matched first)
    (second : List Command) : unmatchedPops (first ++ second) = unmatchedPops second := by
  induction h generalizing second with
  | nil => rfl
  | plain hplain _ ih => rw [List.cons_append, unmatchedPops_cons_of_not_isStack hplain, ih]
  | block _ _ ihInner ihRest =>
    rw [List.cons_append, List.append_assoc, List.cons_append, unmatchedPops, ihInner,
      unmatchedPops, ihRest, Nat.add_sub_cancel]

/-- A matched list before an unmatched pop is lost. -/
theorem Matched.reduce_append_of_ne_zero {first second : List Command} (h : Matched first)
    (hsecond : unmatchedPops second ≠ 0) : reduce (first ++ second) = reduce second := by
  induction h generalizing second with
  | nil => rfl
  | plain _ hrest ih =>
    rw [List.cons_append, reduce_cons_of_ne_zero _ (by rwa [hrest.unmatchedPops_append]),
      ih hsecond]
  | block _ _ ihInner ihRest =>
    rw [List.cons_append, reduce_cons_of_isStack rfl, List.append_assoc, List.cons_append,
      ihInner (unmatchedPops_pop_ne_zero _), reduce_cons_of_isStack rfl, ihRest hsecond]

/-- A matched list in front has no push without a pop. -/
theorem Matched.unclosed_append {first : List Command} (h : Matched first)
    (second : List Command) : unclosed (first ++ second) = (unclosed second).map (first ++ ·) := by
  induction h generalizing second with
  | nil => exact (List.map_id _).symm
  | @plain command rest hplain _ ih =>
    have hne : command ≠ push := by
      rintro rfl
      cases hplain
    rw [List.cons_append, unclosed_cons_of_ne_push hne, ih, List.map_map]
    rfl
  | @block inner rest hinner _ ihInner ihRest =>
    have hclosed : unmatchedPops (inner ++ pop :: (rest ++ second)) ≠ 0 := by
      rw [hinner.unmatchedPops_append]
      exact unmatchedPops_pop_ne_zero _
    rw [List.cons_append, List.append_assoc, List.cons_append, unclosed_push_of_ne_zero hclosed,
      ihInner, unclosed_cons_of_ne_push (by decide), ihRest, List.map_map, List.map_map,
      List.map_map]
    refine List.map_congr_left fun part _ ↦ ?_
    simp only [Function.comp_apply, List.cons_append, List.append_assoc]

/-- What a list does to the lists after it depends on their unmatched pops alone. -/
theorem reduce_append_congr {second other : List Command}
    (hpops : unmatchedPops second = unmatchedPops other) (hreduce : reduce second = reduce other)
    (first : List Command) :
    unmatchedPops (first ++ second) = unmatchedPops (first ++ other) ∧
      reduce (first ++ second) = reduce (first ++ other) := by
  induction first with
  | nil => exact ⟨hpops, hreduce⟩
  | cons command rest ih =>
    obtain ⟨ihPops, ihReduce⟩ := ih
    constructor
    · cases command with
      | push | pop => rw [List.cons_append, List.cons_append, unmatchedPops, unmatchedPops, ihPops]
      | forward _ | turn _ | penDown | penUp | ignore => exact ihPops
    · rw [List.cons_append, List.cons_append, reduce, reduce, ihPops, ihReduce]

/-- Reducing deletes a block, its contents included, wherever it stands. -/
theorem reduce_block (before : List Command) {inner : List Command} (h : Matched inner)
    (rest : List Command) :
    reduce (before ++ push :: (inner ++ pop :: rest)) = reduce (before ++ rest) := by
  have hpops : unmatchedPops (push :: (inner ++ pop :: rest)) = unmatchedPops rest := by
    rw [unmatchedPops, h.unmatchedPops_append, unmatchedPops, Nat.add_sub_cancel]
  have hreduce : reduce (push :: (inner ++ pop :: rest)) = reduce rest := by
    rw [reduce_cons_of_isStack rfl, h.reduce_append_of_ne_zero (unmatchedPops_pop_ne_zero _),
      reduce_cons_of_isStack rfl]
  exact (reduce_append_congr hpops hreduce before).2

/-- Reducing deletes a push without a pop, wherever it stands. -/
theorem reduce_push (before : List Command) {rest : List Command} (h : unmatchedPops rest = 0) :
    reduce (before ++ push :: rest) = reduce (before ++ rest) := by
  have hpops : unmatchedPops (push :: rest) = unmatchedPops rest := by
    rw [unmatchedPops, h]
  exact (reduce_append_congr hpops (reduce_cons_of_isStack rfl rest) before).2

/-- Reducing deletes nothing else. -/
theorem reduce_of_not_isStack {commands : List Command}
    (h : ∀ command ∈ commands, command.isStack = false) :
    unmatchedPops commands = 0 ∧ reduce commands = commands := by
  induction commands with
  | nil => exact ⟨rfl, rfl⟩
  | cons command rest ih =>
    obtain ⟨hplain, hrest⟩ := List.forall_mem_cons.mp h
    obtain ⟨hpops, hreduce⟩ := ih hrest
    constructor
    · rw [unmatchedPops_cons_of_not_isStack hplain, hpops]
    · rw [reduce_cons_of_eq_zero hplain hpops, hreduce]

example : reduce [penDown, push, turn 1, push, forward 1, pop, pop, push, forward 2] =
    [penDown, forward 2] := rfl

/-- A reduced list has no stack command. -/
theorem isStack_of_mem_reduce {command : Command} {commands : List Command}
    (h : command ∈ reduce commands) : command.isStack = false := by
  induction commands with
  | nil => cases h
  | cons first rest ih =>
    rw [reduce] at h
    split at h
    · rename_i hplain
      rcases List.mem_cons.mp h with rfl | hrest
      · exact hplain.1
      · exact ih hrest
    · exact ih h

end Command

/-! ### Runs -/

attribute [ext] Turtle

namespace Turtle

open Command

/-- Every command of a list is carried out when its turn comes. -/
def Accepts (turtle : Turtle) : List Command → Prop
  | [] => True
  | command :: commands =>
    (turtle.carryOut command).2.isOk = true ∧ (turtle.next command).Accepts commands

/-- A pop that is carried out finds a saved snapshot. -/
theorem exists_saved_of_isOk {turtle : Turtle} (h : (turtle.carryOut .pop).2.isOk = true) :
    ∃ live saved, turtle.saved = live :: saved ∧
      turtle.next .pop = { turtle with live := live, saved := saved } := by
  cases hsaved : turtle.saved with
  | nil =>
    rw [carryOut_pop_of_nil hsaved] at h
    cases h
  | cons live saved => exact ⟨live, saved, rfl, next_of_ok (carryOut_pop hsaved)⟩

/-- A push that is carried out saves the live snapshot. -/
theorem next_push_of_isOk {turtle : Turtle} (h : (turtle.carryOut .push).2.isOk = true) :
    turtle.next .push = { turtle with saved := turtle.live :: turtle.saved } := by
  have hpush := turtle.carryOut_push
  split at hpush
  · rw [hpush] at h
    cases h
  · exact next_of_ok hpush

/-- The account of a run by reduction, for a turtle that begins with the snapshots `stack`, the live
one first. The snapshot to which the last unmatched pop returns, the live one if there is none, is
the origin. The run ends where the reduced list leads from the origin. It leaves the snapshots under
the origin, and on them one for each push without a pop: where the reduced part before that push
leads from the origin. -/
def EndsFrom (last : Turtle) (stack : List Snapshot) (commands : List Command) : Prop :=
  ∃ origin, stack[unmatchedPops commands]? = some origin ∧
    last.live = origin.performAll (reduce commands) ∧
    last.saved =
      ((unclosed commands).map fun before ↦ origin.performAll (reduce before)).reverse ++
        stack.drop (unmatchedPops commands + 1)

/-- A push in front saves the live snapshot; if it has no pop, the copy is left in the end. -/
theorem EndsFrom.push {last : Turtle} {live : Snapshot} {saved : List Snapshot}
    {commands : List Command} (h : last.EndsFrom (live :: live :: saved) commands) :
    last.EndsFrom (live :: saved) (.push :: commands) := by
  obtain ⟨origin, horigin, hlive, hsaved⟩ := h
  have hlost : ∀ before, reduce (.push :: before) = reduce before := fun before ↦
    reduce_cons_of_isStack rfl before
  cases hpops : unmatchedPops commands with
  | zero =>
    rw [hpops] at horigin hsaved
    obtain rfl : live = origin := Option.some.inj horigin
    refine ⟨live, ?_, by rw [hlost, hlive], ?_⟩
    · rw [unmatchedPops, hpops]
      rfl
    · rw [hsaved, unclosed_push_of_eq_zero hpops, unmatchedPops, hpops, List.map_cons, List.map_map,
        List.reverse_cons, List.append_assoc]
      simp only [Function.comp_def, hlost]
      rfl
  | succ pops =>
    have hne : unmatchedPops commands ≠ 0 := by omega
    rw [hpops] at horigin hsaved
    refine ⟨origin, ?_, by rw [hlost, hlive], ?_⟩
    · rw [unmatchedPops, hpops]
      exact horigin
    · rw [hsaved, unclosed_push_of_ne_zero hne, unmatchedPops, hpops, List.map_map]
      simp only [Function.comp_def, hlost]
      rfl

/-- A pop in front drops the live snapshot. -/
theorem EndsFrom.pop {last : Turtle} {stack : List Snapshot} {commands : List Command}
    (live : Snapshot) (h : last.EndsFrom stack commands) :
    last.EndsFrom (live :: stack) (.pop :: commands) := by
  obtain ⟨origin, horigin, hlive, hsaved⟩ := h
  have hlost : ∀ before, reduce (.pop :: before) = reduce before := fun before ↦
    reduce_cons_of_isStack rfl before
  refine ⟨origin, horigin, by rw [hlost, hlive], ?_⟩
  rw [hsaved, unclosed_cons_of_ne_push (by decide), List.map_map]
  simp only [Function.comp_def, hlost]
  rfl

/-- Any other command in front changes the live snapshot, which matters if the live snapshot is the
origin, that is, if no unmatched pop follows. -/
theorem EndsFrom.plain {last : Turtle} {live : Snapshot} {saved : List Snapshot} {command : Command}
    {commands : List Command} (hplain : command.isStack = false)
    (h : last.EndsFrom (live.perform command :: saved) commands) :
    last.EndsFrom (live :: saved) (command :: commands) := by
  obtain ⟨origin, horigin, hlive, hsaved⟩ := h
  have hne : command ≠ .push := by
    rintro rfl
    cases hplain
  have hpart : ∀ before ∈ unclosed commands, unmatchedPops before = unmatchedPops commands :=
    fun before hbefore ↦ unmatchedPops_of_mem_unclosed hbefore
  rw [EndsFrom, unmatchedPops_cons_of_not_isStack hplain, unclosed_cons_of_ne_push hne]
  cases hpops : unmatchedPops commands with
  | zero =>
    rw [hpops] at horigin hsaved hpart
    obtain rfl : live.perform command = origin := Option.some.inj horigin
    refine ⟨live, rfl, by rw [hlive, reduce_cons_of_eq_zero hplain hpops]; rfl, ?_⟩
    have hparts : ∀ before ∈ unclosed commands,
        (live.perform command).performAll (reduce before) =
          live.performAll (reduce (command :: before)) := by
      intro before hbefore
      rw [reduce_cons_of_eq_zero hplain (hpart before hbefore)]
      rfl
    rw [hsaved, List.map_map, List.map_congr_left hparts]
    rfl
  | succ pops =>
    have hpopsNe : unmatchedPops commands ≠ 0 := by omega
    rw [hpops] at horigin hsaved
    refine ⟨origin, horigin, by rw [hlive, reduce_cons_of_ne_zero command hpopsNe], ?_⟩
    have hparts : ∀ before ∈ unclosed commands,
        origin.performAll (reduce before) = origin.performAll (reduce (command :: before)) := by
      intro before hbefore
      have hpartNe : unmatchedPops before ≠ 0 := by
        rw [hpart before hbefore]
        exact hpopsNe
      rw [reduce_cons_of_ne_zero command hpartNe]
    rw [hsaved, List.map_map, List.map_congr_left hparts]
    rfl

/-- A turtle that carries out all commands of a list ends as the reduction says. -/
theorem endsFrom_after {turtle : Turtle} {commands : List Command}
    (haccepts : turtle.Accepts commands) :
    (turtle.after commands).EndsFrom (turtle.live :: turtle.saved) commands := by
  induction commands generalizing turtle with
  | nil => exact ⟨turtle.live, rfl, rfl, rfl⟩
  | cons command rest ih =>
    obtain ⟨hcommand, hrest⟩ := haccepts
    have hends := ih hrest
    cases hstack : command.isStack with
    | true =>
      cases command with
      | forward _ | turn _ | penDown | penUp | ignore => cases hstack
      | push =>
        rw [next_push_of_isOk hcommand] at hends
        rw [after_cons, next_push_of_isOk hcommand]
        exact hends.push
      | pop =>
        obtain ⟨live, saved, hsaved, hnext⟩ := exists_saved_of_isOk hcommand
        rw [hnext] at hends
        rw [after_cons, hnext, hsaved]
        exact hends.pop turtle.live
    | false =>
      rw [turtle.next_of_not_isStack hstack] at hends
      rw [after_cons, turtle.next_of_not_isStack hstack]
      exact hends.plain hstack

/-- A run that keeps `floor` snapshots has as many over them in the beginning as it takes back. -/
theorem add_unmatchedPops_le_depth {turtle : Turtle} {commands : List Command} {floor : Nat}
    (haccepts : turtle.Accepts commands)
    (habove : ∀ part, part <+: commands → floor ≤ (turtle.after part).depth) :
    floor + unmatchedPops commands ≤ turtle.depth := by
  induction commands generalizing turtle with
  | nil => exact habove [] List.prefix_rfl
  | cons command rest ih =>
    obtain ⟨hcommand, hrest⟩ := haccepts
    have hstart : floor ≤ turtle.depth := habove [] List.nil_prefix
    have hnext : floor + unmatchedPops rest ≤ (turtle.next command).depth := by
      apply ih hrest
      intro part hpart
      exact habove (command :: part) (List.cons_prefix_cons.mpr ⟨rfl, hpart⟩)
    cases hstack : command.isStack with
    | true =>
      cases command with
      | forward _ | turn _ | penDown | penUp | ignore => cases hstack
      | push =>
        rw [next_push_of_isOk hcommand, depth, List.length_cons] at hnext
        rw [depth] at hstart
        rw [unmatchedPops, depth]
        omega
      | pop =>
        obtain ⟨live, saved, hsaved, hpopped⟩ := exists_saved_of_isOk hcommand
        rw [hpopped] at hnext
        have hdepth : turtle.depth = saved.length + 1 + 1 := by
          rw [depth, hsaved, List.length_cons]
        have hkept : floor + unmatchedPops rest ≤ saved.length + 1 := hnext
        rw [unmatchedPops]
        omega
    | false =>
      rw [turtle.next_of_not_isStack hstack] at hnext
      rw [unmatchedPops_cons_of_not_isStack hstack]
      exact hnext

/-- A run that never returns to before its start has no unmatched pop. -/
theorem unmatchedPops_eq_zero {turtle : Turtle} {commands : List Command}
    (haccepts : turtle.Accepts commands)
    (habove : ∀ part, part <+: commands → turtle.depth ≤ (turtle.after part).depth) :
    unmatchedPops commands = 0 := by
  have hle := add_unmatchedPops_le_depth haccepts habove
  omega

/-- Commands that are not stack commands are carried out by every turtle. -/
theorem accepts_of_not_isStack (turtle : Turtle) {commands : List Command}
    (h : ∀ command ∈ commands, command.isStack = false) : turtle.Accepts commands := by
  induction commands generalizing turtle with
  | nil => trivial
  | cons command commands ih =>
    obtain ⟨hcommand, hrest⟩ := List.forall_mem_cons.mp h
    obtain ⟨outline, hcarryOut⟩ := turtle.carryOut_of_not_isStack hcommand
    constructor
    · rw [hcarryOut]
      rfl
    · exact ih _ hrest

/-- The live snapshot after a reduced list. -/
theorem live_after_reduce (turtle : Turtle) (commands : List Command) :
    (turtle.after (reduce commands)).live = turtle.live.performAll (reduce commands) := by
  rw [turtle.after_of_not_isStack fun _ hcommand ↦ isStack_of_mem_reduce hcommand]

/-- A run that never returns to before its start leads where the reduced list leads, and saves one
snapshot for each push without a pop. -/
theorem live_saved_after {turtle : Turtle} {commands : List Command}
    (haccepts : turtle.Accepts commands) (hpops : unmatchedPops commands = 0) :
    (turtle.after commands).live = (turtle.after (reduce commands)).live ∧
      (turtle.after commands).saved =
        ((unclosed commands).map fun before ↦ (turtle.after (reduce before)).live).reverse ++
          turtle.saved := by
  obtain ⟨origin, horigin, hlive, hsaved⟩ := endsFrom_after haccepts
  rw [hpops] at horigin hsaved
  obtain rfl : turtle.live = origin := Option.some.inj horigin
  refine ⟨by rw [hlive, live_after_reduce], ?_⟩
  simp only [live_after_reduce]
  exact hsaved

/-- A block restores the turtle. -/
theorem after_block {turtle : Turtle} {inner : List Command} (hinner : Matched inner)
    (haccepts : turtle.Accepts (.push :: (inner ++ [.pop]))) :
    turtle.after (.push :: (inner ++ [.pop])) = turtle := by
  have hpop : unmatchedPops (inner ++ [.pop]) = 1 := hinner.unmatchedPops_append [.pop]
  have hpops : unmatchedPops (.push :: (inner ++ [.pop])) = 0 := by
    rw [unmatchedPops, hpop]
  have hunclosed : unclosed (.push :: (inner ++ [.pop])) = [] := by
    rw [unclosed_push_of_ne_zero (by rw [hpop]; exact Nat.one_ne_zero), hinner.unclosed_append]
    rfl
  obtain ⟨hlive, hsaved⟩ := live_saved_after haccepts hpops
  obtain ⟨hname, hsetup⟩ := turtle.name_setup_after (.push :: (inner ++ [.pop]))
  have hnone : reduce (.push :: (inner ++ [.pop])) = [] := reduce_block [] hinner []
  rw [hnone] at hlive
  rw [hunclosed] at hsaved
  exact Turtle.ext hname hsetup hlive hsaved

end Turtle

/-! ### Plotters -/

section

variable {σ η : Type} [Canvas σ η]

/-- No command of a list is refused when its turn comes. -/
def Plotter.Accepts (plotter : Plotter σ η) : List Command → Prop
  | [] => True
  | command :: commands =>
    (plotter.attempt command).result.isOk = true ∧
      (plotter.attempt command).plotter.Accepts commands

theorem Plotter.isOk_attempt (plotter : Plotter σ η) (command : Command) :
    (plotter.attempt command).result.isOk = (plotter.turtle.carryOut command).2.isOk := by
  cases h : (plotter.turtle.carryOut command).2 with
  | error error => rw [attempt_of_error h]; rfl
  | ok outline => rw [attempt_of_ok (Prod.ext rfl h)]; rfl

/-- Only the turtle of a plotter can refuse. -/
theorem Plotter.accepts_iff (plotter : Plotter σ η) (commands : List Command) :
    plotter.Accepts commands ↔ plotter.turtle.Accepts commands := by
  induction commands generalizing plotter with
  | nil => exact Iff.rfl
  | cons command commands ih => rw [Accepts, Turtle.Accepts, isOk_attempt, ih, turtle_attempt]

/-- The stack can be eliminated from a run: the live snapshot is the one after the reduced list,
which has no stack command, and every push without a pop has saved the one after the reduced part
before it. A push, a matched list and a pop restore the turtle, whatever was drawn between.

Assumes: no command is refused; the run never returns to before its start. -/
theorem live_saved_eq_reduce {plotter : Plotter σ η} {commands : List Command}
    (haccepts : plotter.Accepts commands)
    (habove : ∀ part, part <+: commands →
      plotter.turtle.depth ≤ (plotter.attemptAll part).turtle.depth) :
    plotter.Accepts (Command.reduce commands) ∧
      (plotter.attemptAll commands).turtle.live =
        (plotter.attemptAll (Command.reduce commands)).turtle.live ∧
      (plotter.attemptAll commands).turtle.saved =
        ((Command.unclosed commands).map fun before ↦
            (plotter.attemptAll (Command.reduce before)).turtle.live).reverse ++
          plotter.turtle.saved ∧
      ∀ inner, Command.Matched inner → plotter.Accepts (.push :: (inner ++ [.pop])) →
        (plotter.attemptAll (.push :: (inner ++ [.pop]))).turtle = plotter.turtle := by
  simp only [Plotter.turtle_attemptAll] at habove ⊢
  rw [Plotter.accepts_iff] at haccepts
  have hpops : Command.unmatchedPops commands = 0 :=
    Turtle.unmatchedPops_eq_zero haccepts habove
  obtain ⟨hlive, hsaved⟩ := Turtle.live_saved_after haccepts hpops
  refine ⟨?_, hlive, hsaved, fun inner hinner hblock ↦ ?_⟩
  · rw [Plotter.accepts_iff]
    exact Turtle.accepts_of_not_isStack _ fun _ hcommand ↦ Command.isStack_of_mem_reduce hcommand
  · rw [Plotter.accepts_iff] at hblock
    exact Turtle.after_block hinner hblock

end

/-- A twig and a push without a pop: the twig is lost, its curve is drawn, and the push has saved
the snapshot with the path up to it. -/
theorem twig_is_lost :
    let plotter : Plotter Sketchbook Nat := ⟨.initial "twig" .nurbs {}, {}, #[]⟩
    let commands : List Command :=
      [.penDown, .forward 1, .push, .turn 1, .forward 1, .penUp, .pop, .push, .forward 2]
    plotter.Accepts commands ∧
      (plotter.attemptAll commands).handles = #[0] ∧
      (plotter.attemptAll commands).turtle.live =
        (plotter.attemptAll [.penDown, .forward 1, .forward 2]).turtle.live ∧
      (plotter.attemptAll commands).turtle.saved =
        [(plotter.attemptAll [.penDown, .forward 1]).turtle.live] := by
  intro plotter commands
  have haccepts : plotter.Accepts commands :=
    ⟨rfl, rfl, rfl, rfl, rfl, rfl, rfl, rfl, rfl, trivial⟩
  have hdepths : ∀ part ∈ commands.inits,
      plotter.turtle.depth ≤ (plotter.attemptAll part).turtle.depth := by
    decide
  obtain ⟨-, hlive, hsaved, -⟩ := live_saved_eq_reduce haccepts fun part hpart ↦
    hdepths part ((List.mem_inits part commands).mpr hpart)
  exact ⟨haccepts, rfl, hlive, hsaved⟩

end Lindenmayer
