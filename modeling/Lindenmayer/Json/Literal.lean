/-!
# String literals

A string literal stands between double quotes. A backslash begins an escape; an escape by four
hexadecimal digits names a code unit of sixteen bits, and two such units in a row can be the halves
of one character. A half without its partner is grammatical but spells no text: a literal that holds
one is read as `none`, and whoever needs its text has to refuse it.

Reading takes two steps. `Literal.scan` finds the closing quote and resolves the escapes, and
`Literal.join` puts the halves together. `Literal.quote` writes a text as a literal.
-/

set_option autoImplicit false

namespace Lindenmayer

/-- The text of a string literal, if it spells one. -/
abbrev Literal := Option String

namespace Literal

/-- What one character or one escape of a literal contributes. -/
inductive Piece
  /-- A character. -/
  | character (character : Char)
  /-- A code unit of sixteen bits. -/
  | unit (code : Nat)
deriving DecidableEq

/-- The value of a hexadecimal digit. -/
def hexValue? (digit : Char) : Option Nat :=
  if digit.isDigit then some (digit.toNat - '0'.toNat)
  else if 'a' ≤ digit ∧ digit ≤ 'f' then some (digit.toNat - 'a'.toNat + 10)
  else if 'A' ≤ digit ∧ digit ≤ 'F' then some (digit.toNat - 'A'.toNat + 10)
  else none

/-- The value of a run of hexadecimal digits. -/
def hexNumber? (digits : List Char) : Option Nat :=
  digits.foldlM (fun number digit ↦ (hexValue? digit).map fun value ↦ 16 * number + value) 0

/-- The character of an escape by one letter. -/
def escaped? : Char → Option Char
  | '"' => some '"'
  | '\\' => some '\\'
  | '/' => some '/'
  | 'b' => some '\x08'
  | 'f' => some '\x0c'
  | 'n' => some '\n'
  | 'r' => some '\r'
  | 't' => some '\t'
  | _ => none

/-- Whether a character may stand in a literal only by an escape, apart from the quote and the
backslash. -/
def isControl (character : Char) : Bool := character.toNat < 32

/-- Reads the inside of a literal up to its closing quote, with the pieces so far in reverse, and
returns the pieces and what follows the quote. -/
def scan : List Char → List Piece → Option (List Piece × List Char)
  | [], _ => none
  | '"' :: text, pieces => some (pieces.reverse, text)
  | '\\' :: 'u' :: first :: second :: third :: fourth :: text, pieces =>
    match hexNumber? [first, second, third, fourth] with
    | some code => scan text (.unit code :: pieces)
    | none => none
  | '\\' :: letter :: text, pieces =>
    match escaped? letter with
    | some character => scan text (.character character :: pieces)
    | none => none
  | character :: text, pieces =>
    if isControl character ∨ character = '\\' then none
    else scan text (.character character :: pieces)

theorem length_of_scan {text rest : List Char} {before pieces : List Piece}
    (hscan : scan text before = some (pieces, rest)) : rest.length < text.length := by
  fun_induction scan text before with
  | case1 => simp at hscan
  | case2 =>
    simp only [Option.some.injEq, Prod.mk.injEq] at hscan
    simp [← hscan.2]
  | case3 before first second third fourth text code hcode ih =>
    have := ih hscan
    simp only [List.length_cons]
    omega
  | case4 => simp at hscan
  | case5 before letter text hletter character hcharacter ih =>
    have := ih hscan
    simp only [List.length_cons]
    omega
  | case6 => simp at hscan
  | case7 => simp at hscan
  | case8 before character text hquote hlong hshort hplain ih =>
    have := ih hscan
    simp only [List.length_cons]
    omega

/-- Whether a code unit is the first half of a character. -/
def isFirstHalf (code : Nat) : Bool := 0xd800 ≤ code && code < 0xdc00

/-- Whether a code unit is the second half of a character. -/
def isSecondHalf (code : Nat) : Bool := 0xdc00 ≤ code && code < 0xe000

/-- Joins halves to characters; there is no text if a half has no partner. -/
def join : List Piece → Option (List Char)
  | [] => some []
  | .character character :: pieces => (join pieces).map (character :: ·)
  | .unit first :: .unit second :: pieces =>
    if isFirstHalf first then
      if isSecondHalf second then
        (join pieces).map (Char.ofNat (0x10000 + (first - 0xd800) * 0x400 + (second - 0xdc00)) :: ·)
      else none
    else if isSecondHalf first then none
    else (join (.unit second :: pieces)).map (Char.ofNat first :: ·)
  | .unit code :: pieces =>
    if isFirstHalf code || isSecondHalf code then none
    else (join pieces).map (Char.ofNat code :: ·)

/-- The text that the pieces of a literal spell. -/
def ofPieces (pieces : List Piece) : Literal := (join pieces).map String.ofList

/-! ### Writing a literal -/

/-- A hexadecimal digit. -/
def hexDigit (value : Nat) : Char := Nat.digitChar value

/-- A character as it stands in a literal. -/
def escape (character : Char) : List Char :=
  if character = '"' ∨ character = '\\' then ['\\', character]
  else if isControl character then
    ['\\', 'u', '0', '0', hexDigit (character.toNat / 16), hexDigit (character.toNat % 16)]
  else [character]

/-- A text between quotes. -/
def quote (text : String) : List Char := '"' :: (text.toList.flatMap escape ++ ['"'])

/-- A literal between quotes; what spells no text is written as a half without its partner. -/
def write : Literal → List Char
  | some text => quote text
  | none => "\"\\ud800\"".toList

end Literal

end Lindenmayer
