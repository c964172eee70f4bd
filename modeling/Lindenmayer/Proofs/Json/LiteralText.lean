import Lindenmayer.Json.Literal
import Mathlib.Tactic.SplitIfs

/-!
# The text of a literal

A literal is written between quotes, its quotes, backslashes and controls by escapes. Reading stops
at the first quote that is not escaped, which is the one that closes the literal: `scan_write` says
that the pieces found up to there spell the literal again, and that what follows is left alone. A
literal without a text is written as half of a character, and no text is read from that.
-/

set_option autoImplicit false

namespace Lindenmayer.Literal

/-- What is read from a character as it stands in a literal. -/
def piece (character : Char) : Piece :=
  if isControl character then .unit character.toNat else .character character

theorem hexNumber?_hexDigit : ∀ code < 32,
    hexNumber? ['0', '0', hexDigit (code / 16), hexDigit (code % 16)] = some code := by
  decide

/-- A character is read back from its escape. -/
theorem scan_escape_append (character : Char) (text : List Char) (pieces : List Piece) :
    scan (escape character ++ text) pieces = scan text (piece character :: pieces) := by
  rw [escape]
  split_ifs with hescaped hcontrol
  · rcases hescaped with rfl | rfl <;> rfl
  · have hcode := hexNumber?_hexDigit character.toNat (of_decide_eq_true hcontrol)
    simp only [List.cons_append, List.nil_append, scan, hcode, piece, if_pos hcontrol]
  · obtain ⟨hquote, hbackslash⟩ := not_or.mp hescaped
    rw [List.singleton_append, scan, if_neg, piece, if_neg hcontrol]
    · exact not_or.mpr ⟨hcontrol, hbackslash⟩
    all_goals simp_all

/-- The inside of a quoted text is read up to the quote behind it. -/
theorem scan_flatMap_escape (text rest : List Char) (pieces : List Piece) :
    scan (text.flatMap escape ++ '"' :: rest) pieces =
      some (pieces.reverse ++ text.map piece, rest) := by
  induction text generalizing pieces with
  | nil => simp [scan]
  | cons character text ih =>
    rw [List.flatMap_cons, List.append_assoc, scan_escape_append, ih, List.reverse_cons,
      List.append_assoc, List.singleton_append, List.map_cons]

/-- A unit that is no half of a character is one alone. -/
theorem join_unit {code : Nat} (hfirst : isFirstHalf code = false)
    (hsecond : isSecondHalf code = false) (pieces : List Piece) :
    join (.unit code :: pieces) = (join pieces).map (Char.ofNat code :: ·) := by
  cases pieces with
  | nil => simp [join, hfirst, hsecond]
  | cons next pieces => cases next <;> simp [join, hfirst, hsecond]

/-- The pieces of a text spell it. -/
theorem join_map_piece (text : List Char) : join (text.map piece) = some text := by
  induction text with
  | nil => rfl
  | cons character text ih =>
    rw [List.map_cons, piece]
    split_ifs with hcontrol
    · have hlt : character.toNat < 32 := of_decide_eq_true hcontrol
      rw [join_unit, ih, Option.map_some, Char.ofNat_toNat]
      · simp only [isFirstHalf, Bool.and_eq_false_iff, decide_eq_false_iff_not]
        omega
      · simp only [isSecondHalf, Bool.and_eq_false_iff, decide_eq_false_iff_not]
        omega
    · rw [join, ih, Option.map_some]

/-- A literal is read back from its text, whatever follows. -/
theorem scan_write (literal : Literal) :
    ∃ inside, literal.write = '"' :: inside ∧ ∀ rest, ∃ pieces,
      scan (inside ++ rest) [] = some (pieces, rest) ∧ ofPieces pieces = literal := by
  cases literal with
  | none => exact ⟨"\\ud800\"".toList, rfl, fun rest ↦ ⟨[.unit 0xd800], rfl, rfl⟩⟩
  | some text =>
    refine ⟨_, rfl, fun rest ↦ ⟨text.toList.map piece, ?_, ?_⟩⟩
    · rw [List.append_assoc, List.singleton_append, scan_flatMap_escape, List.reverse_nil,
        List.nil_append]
    · rw [ofPieces, join_map_piece, Option.map_some, String.ofList_toList]

end Lindenmayer.Literal
