import Lindenmayer.Proofs.Turtle.Course
import Mathlib.Data.List.Induction
import Mathlib.Data.List.Infix
import Mathlib.Data.List.TakeWhile

/-!
# Strokes

A stroke is what a list of commands does between a lowering of the pen and the next lifting. This
module reads the strokes off the list, without any turtle: one opens at every command that lowers
the pen while it is up, and takes in everything up to the next command that lifts it.

`strokes_concat` says what one more command at the end does to the strokes: it extends those that
are not closed, and it may open a new one. At most one is not closed, and then it is the last one
and reaches to the end of the list (`strokes_cases`); every other is closed before the next one
opens (`strokes_in_order`), so the strokes are listed in the order in which they open and close.
-/

set_option autoImplicit false

namespace Lindenmayer

/-! ### Strokes of a list -/

namespace Command

/-- Whether a command moves the turtle or turns it. -/
def isMotion : Command → Bool
  | forward _ | turn _ => true
  | penDown | penUp | push | pop | ignore => false

/-- Whether a command lifts the pen. -/
def isPenUp : Command → Bool
  | penUp => true
  | forward _ | turn _ | penDown | push | pop | ignore => false

/-- Whether a command lowers the pen. -/
def isPenDown : Command → Bool
  | penDown => true
  | forward _ | turn _ | penUp | push | pop | ignore => false

theorem eq_penUp {command : Command} (h : command.isPenUp = true) : command = penUp := by
  cases command <;> first | rfl | cases h

theorem eq_penDown {command : Command} (h : command.isPenDown = true) : command = penDown := by
  cases command <;> first | rfl | cases h

/-- Whether the pen is up after a list of commands, if it was up before: the last command that sets
the pen, if any, lifts it. -/
def penRaised (commands : List Command) : Bool :=
  commands.foldl (fun raised command ↦ command.isPenUp || raised && !command.isPenDown) true

theorem penRaised_concat (commands : List Command) (command : Command) :
    penRaised (commands ++ [command]) =
      (command.isPenUp || penRaised commands && !command.isPenDown) := by
  rw [penRaised, List.foldl_append]
  rfl

end Command

/-- What happens between a lowering of the pen and the next lifting. -/
@[ext] structure Stroke where
  /-- All commands before the one that lowers the pen. -/
  before : List Command
  /-- The commands after it, up to the one that lifts the pen. -/
  inside : List Command
  /-- Whether there is one that lifts the pen. -/
  closed : Bool
deriving DecidableEq

namespace Stroke

/-- The stroke that opens between two lists of commands. -/
def between (before rest : List Command) : Stroke where
  before := before
  inside := rest.takeWhile (!·.isPenUp)
  closed := rest.any (·.isPenUp)

/-- The stroke after one more command. -/
def extend (stroke : Stroke) (command : Command) : Stroke :=
  if stroke.closed then stroke
  else if command.isPenUp then { stroke with closed := true }
  else { stroke with inside := stroke.inside ++ [command] }

/-- All commands up to the end of a stroke. -/
def reach (stroke : Stroke) : List Command :=
  stroke.before ++ .penDown :: stroke.inside ++ if stroke.closed then [.penUp] else []

@[simp] theorem before_extend (stroke : Stroke) (command : Command) :
    (stroke.extend command).before = stroke.before := by
  rw [extend]
  split
  · rfl
  · split <;> rfl

theorem extend_of_closed {stroke : Stroke} (h : stroke.closed = true) (command : Command) :
    stroke.extend command = stroke := by
  rw [extend, if_pos h]

theorem extend_penUp {stroke : Stroke} (h : stroke.closed = false) {command : Command}
    (hlift : command.isPenUp = true) : stroke.extend command = { stroke with closed := true } := by
  rw [extend, h, if_neg Bool.false_ne_true, if_pos hlift]

theorem extend_of_not_isPenUp {stroke : Stroke} (h : stroke.closed = false) {command : Command}
    (hkeep : command.isPenUp = false) :
    stroke.extend command = { stroke with inside := stroke.inside ++ [command] } := by
  rw [extend, h, if_neg Bool.false_ne_true, hkeep, if_neg Bool.false_ne_true]

/-- A stroke that is closed in the list is not extended by a command at its end. -/
theorem between_concat_of_any {rest : List Command} (hlift : rest.any (·.isPenUp) = true)
    (before : List Command) (command : Command) :
    between before (rest ++ [command]) = between before rest := by
  have hinside : (rest ++ [command]).takeWhile (!·.isPenUp) = rest.takeWhile (!·.isPenUp) := by
    rw [List.takeWhile_append, if_neg]
    intro hlength
    obtain ⟨lift, hmem, hpen⟩ := List.any_eq_true.mp hlift
    rw [← (List.takeWhile_prefix _).eq_of_length hlength] at hmem
    have hkeep := List.mem_takeWhile_imp hmem
    rw [hpen] at hkeep
    cases hkeep
  ext1
  · rfl
  · exact hinside
  · show (rest ++ [command]).any (·.isPenUp) = rest.any (·.isPenUp)
    rw [List.any_append, hlift, Bool.true_or]

/-- A stroke that is open in the list has all the list inside, and a command at its end extends
it. -/
theorem between_concat_of_not_any {rest : List Command} (hopen : rest.any (·.isPenUp) = false)
    (before : List Command) (command : Command) :
    between before (rest ++ [command]) = (between before rest).extend command := by
  have hkeep : ∀ other ∈ rest, (!other.isPenUp) = true := by
    intro other hother
    rw [List.any_eq_false] at hopen
    simpa using hopen other hother
  have hinside : rest.takeWhile (!·.isPenUp) = rest := List.takeWhile_eq_self_iff.mpr hkeep
  have hafter : (rest ++ [command]).takeWhile (!·.isPenUp) =
      rest ++ [command].takeWhile (!·.isPenUp) := List.takeWhile_append_of_pos hkeep
  have hclosed : (rest ++ [command]).any (·.isPenUp) = command.isPenUp := by
    rw [List.any_append, hopen, List.any_cons, List.any_nil, Bool.or_false, Bool.false_or]
  unfold between
  rw [hafter, hclosed, hinside, hopen, List.takeWhile_cons]
  cases hlift : command.isPenUp with
  | true =>
    rw [extend_penUp rfl hlift]
    simp
  | false =>
    rw [extend_of_not_isPenUp rfl hlift]
    simp

/-- A command at the end of the list extends a stroke, unless it has been closed. -/
theorem between_concat (before rest : List Command) (command : Command) :
    between before (rest ++ [command]) = (between before rest).extend command := by
  by_cases hlift : rest.any (·.isPenUp) = true
  · rw [between_concat_of_any hlift, extend_of_closed hlift]
  · exact between_concat_of_not_any (Bool.eq_false_iff.mpr hlift) before command

end Stroke

/-- The strokes that open in a list of commands, for a list that follows the commands `before`. -/
def strokesAfter (before : List Command) : List Command → List Stroke
  | [] => []
  | command :: rest =>
    (if command.isPenDown && Command.penRaised before then [.between before rest] else []) ++
      strokesAfter (before ++ [command]) rest

/-- The strokes of a list of commands, for a pen that is up in the beginning. -/
def strokes (commands : List Command) : List Stroke := strokesAfter [] commands

/-! ### One more command -/

open Command

theorem strokesAfter_concat (before commands : List Command) (command : Command) :
    strokesAfter before (commands ++ [command]) =
      (strokesAfter before commands).map (·.extend command) ++
        strokesAfter (before ++ commands) [command] := by
  induction commands generalizing before with
  | nil => rw [List.nil_append, List.append_nil]; rfl
  | cons first rest ih =>
    rw [List.cons_append, strokesAfter, strokesAfter, ih, Stroke.between_concat, List.map_append,
      List.append_assoc, List.append_assoc, List.singleton_append]
    split <;> rfl

/-- One more command extends the strokes that are open and may open one. -/
theorem strokes_concat (commands : List Command) (command : Command) :
    strokes (commands ++ [command]) =
      (strokes commands).map (·.extend command) ++
        if command.isPenDown && penRaised commands then [⟨commands, [], false⟩] else [] := by
  rw [strokes, strokesAfter_concat, List.nil_append, strokesAfter, strokesAfter, List.append_nil]
  rfl

/-- Closed strokes are not extended. -/
theorem map_extend_of_closed {list : List Stroke} (h : ∀ stroke ∈ list, stroke.closed = true)
    (command : Command) : list.map (·.extend command) = list := by
  rw [List.map_congr_left fun stroke hstroke ↦ Stroke.extend_of_closed (h stroke hstroke) command]
  exact List.map_id' list

/-- If all strokes are closed, the next command opens one or does nothing about strokes. -/
theorem strokes_concat_of_closed {commands : List Command} (hraised : penRaised commands = true)
    (hclosed : ∀ stroke ∈ strokes commands, stroke.closed = true) (command : Command) :
    strokes (commands ++ [command]) =
      strokes commands ++ if command.isPenDown then [⟨commands, [], false⟩] else [] := by
  rw [strokes_concat, map_extend_of_closed hclosed, hraised, Bool.and_true]

/-- If one stroke is open, the next command extends it. -/
theorem strokes_concat_of_open {commands : List Command} {earlier : List Stroke} {last : Stroke}
    (hlowered : penRaised commands = false) (hstrokes : strokes commands = earlier ++ [last])
    (hclosed : ∀ stroke ∈ earlier, stroke.closed = true) (command : Command) :
    strokes (commands ++ [command]) = earlier ++ [last.extend command] := by
  rw [strokes_concat, hstrokes, hlowered, Bool.and_false, if_neg Bool.false_ne_true,
    List.append_nil, List.map_append, map_extend_of_closed hclosed]
  rfl

/-- While the pen is up, all strokes are closed. While it is down, the last one is open and reaches
to the end of the list, and all others are closed. -/
theorem strokes_cases (commands : List Command) :
    (penRaised commands = true ∧ ∀ stroke ∈ strokes commands, stroke.closed = true) ∨
      (penRaised commands = false ∧ ∃ earlier last, strokes commands = earlier ++ [last] ∧
        (∀ stroke ∈ earlier, stroke.closed = true) ∧ last.closed = false ∧
          last.before ++ .penDown :: last.inside = commands) := by
  induction commands using List.reverseRecOn with
  | nil =>
    left
    refine ⟨rfl, fun stroke hstroke ↦ ?_⟩
    cases hstroke
  | append_singleton commands command ih =>
    rw [penRaised_concat]
    rcases ih with ⟨hraised, hclosed⟩ | ⟨hlowered, earlier, last, hstrokes, hclosed, hopen, hreach⟩
    · rw [strokes_concat_of_closed hraised hclosed, hraised, Bool.true_and]
      cases command with
      | penDown => exact .inr ⟨rfl, strokes commands, ⟨commands, [], false⟩, rfl, hclosed, rfl, rfl⟩
      | forward _ | turn _ | penUp | push | pop | ignore =>
        exact .inl ⟨rfl, by simpa [isPenDown] using hclosed⟩
    · rw [strokes_concat_of_open hlowered hstrokes hclosed, hlowered, Bool.false_and,
        Bool.or_false]
      cases hlift : command.isPenUp with
      | true =>
        refine .inl ⟨rfl, fun stroke hstroke ↦ ?_⟩
        rw [Stroke.extend_penUp hopen hlift] at hstroke
        rcases List.mem_append.mp hstroke with hearlier | hlast
        · exact hclosed stroke hearlier
        · rw [List.mem_singleton.mp hlast]
      | false =>
        refine .inr ⟨rfl, earlier, last.extend command, rfl, hclosed, ?_, ?_⟩
        · rw [Stroke.extend_of_not_isPenUp hopen hlift]
          exact hopen
        · rw [Stroke.extend_of_not_isPenUp hopen hlift, ← hreach]
          simp

example : strokes [forward 1, penDown, turn 1, penDown, penUp, penUp, penDown, forward 2] =
    [⟨[forward 1], [turn 1, penDown], true⟩,
      ⟨[forward 1, penDown, turn 1, penDown, penUp, penUp], [forward 2], false⟩] := rfl

/-- If all strokes but the last are closed, an open one is the last. -/
theorem eq_last_of_open {earlier : List Stroke} {last stroke : Stroke}
    (hclosed : ∀ other ∈ earlier, other.closed = true) (hstroke : stroke ∈ earlier ++ [last])
    (hopen : stroke.closed = false) : stroke = last := by
  rcases List.mem_append.mp hstroke with hearlier | hlast
  · rw [hclosed stroke hearlier] at hopen
    cases hopen
  · exact List.mem_singleton.mp hlast

/-! ### Order -/

/-- An open stroke that reaches to the end of a list still does after one more command. -/
theorem Stroke.reach_extend {stroke : Stroke} {commands : List Command}
    (hopen : stroke.closed = false) (hreach : stroke.before ++ .penDown :: stroke.inside = commands)
    (command : Command) : (stroke.extend command).reach = commands ++ [command] := by
  cases hlift : command.isPenUp with
  | true =>
    rw [extend_penUp hopen hlift, reach, hreach, eq_penUp hlift]
    rfl
  | false =>
    rw [extend_of_not_isPenUp hopen hlift, reach, ← hreach]
    simp [hopen]

/-- Every stroke is part of the list, and every stroke is closed before the next one opens. -/
theorem strokes_in_order (commands : List Command) :
    (∀ stroke ∈ strokes commands, stroke.reach <+: commands) ∧
      (strokes commands).Pairwise fun first second ↦
        first.closed = true ∧ first.reach <+: second.before := by
  induction commands using List.reverseRecOn with
  | nil =>
    constructor
    · intro stroke hstroke
      cases hstroke
    · exact List.Pairwise.nil
  | append_singleton commands command ih =>
    obtain ⟨hwithin, horder⟩ := ih
    have hgrow : commands <+: commands ++ [command] := List.prefix_append commands [command]
    rcases strokes_cases commands with
        ⟨hraised, hclosed⟩ | ⟨hlowered, earlier, last, hstrokes, hclosed, hopen, hreach⟩
    · rw [strokes_concat_of_closed hraised hclosed]
      split
      · rename_i hlower
        refine ⟨fun stroke hstroke ↦ ?_, List.pairwise_append.mpr ⟨horder, by simp, ?_⟩⟩
        · rcases List.mem_append.mp hstroke with hold | hnew
          · exact (hwithin stroke hold).trans hgrow
          · rw [List.mem_singleton.mp hnew, eq_penDown hlower, Stroke.reach,
              if_neg Bool.false_ne_true, List.append_nil]
        · intro first hfirst second hsecond
          rw [List.mem_singleton.mp hsecond]
          exact ⟨hclosed first hfirst, hwithin first hfirst⟩
      · rw [List.append_nil]
        exact ⟨fun stroke hstroke ↦ (hwithin stroke hstroke).trans hgrow, horder⟩
    · rw [strokes_concat_of_open hlowered hstrokes hclosed]
      rw [hstrokes] at hwithin horder
      obtain ⟨hearlier, -, hlast⟩ := List.pairwise_append.mp horder
      refine ⟨fun stroke hstroke ↦ ?_, List.pairwise_append.mpr ⟨hearlier, by simp, ?_⟩⟩
      · rcases List.mem_append.mp hstroke with hold | hnew
        · exact (hwithin stroke (List.mem_append_left [last] hold)).trans hgrow
        · rw [List.mem_singleton.mp hnew, Stroke.reach_extend hopen hreach]
      · intro first hfirst second hsecond
        rw [List.mem_singleton.mp hsecond, Stroke.before_extend]
        exact hlast first hfirst last (List.mem_singleton_self last)

end Lindenmayer
