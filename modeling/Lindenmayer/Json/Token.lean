import Lindenmayer.Json.Literal
import Lindenmayer.Json.Numeral

/-!
# Tokens of a document

A document is a sequence of tokens with blanks between them: brackets, commas, colons, three words,
numerals and string literals. Numerals and words reach as far as their characters do, and no two of
them can follow each other without something between, so cutting first and checking afterwards loses
nothing.
-/

set_option autoImplicit false

namespace Lindenmayer

/-- A smallest part of a document. -/
inductive Token
  | leftBrace
  | rightBrace
  | leftBracket
  | rightBracket
  | comma
  | colon
  | null
  | bool (value : Bool)
  | number (numeral : Numeral)
  | string (literal : Literal)
deriving DecidableEq

namespace Token

/-- The token of a single character. -/
def punctuation? : Char → Option Token
  | '{' => some leftBrace
  | '}' => some rightBrace
  | '[' => some leftBracket
  | ']' => some rightBracket
  | ',' => some comma
  | ':' => some colon
  | _ => none

/-- The token of a word. -/
def word? (letters : List Char) : Option Token :=
  if letters = "null".toList then some null
  else if letters = "true".toList then some (bool true)
  else if letters = "false".toList then some (bool false)
  else none

/-- Whether a character can stand between tokens. -/
def isBlank (character : Char) : Bool :=
  character = ' ' || character = '\n' || character = '\t' || character = '\r'

/-- Whether a character can stand in a numeral. -/
def isNumeric (character : Char) : Bool :=
  character.isDigit || character = '-' || character = '+' || character = '.' ||
    character = 'e' || character = 'E'

/-- Whether a character begins a numeral. -/
def beginsNumeral (character : Char) : Bool := character.isDigit || character = '-'

theorem length_dropWhile_le (test : Char → Bool) (text : List Char) :
    (text.dropWhile test).length ≤ text.length :=
  (List.dropWhile_sublist test).length_le

/-- The tokens of a text, after the tokens so far in reverse. -/
def scanFrom (text : List Char) (tokens : List Token) : Option (List Token) :=
  match text with
  | [] => some tokens.reverse
  | character :: rest =>
    have := length_dropWhile_le isNumeric rest
    have := length_dropWhile_le Char.isAlpha rest
    if isBlank character then scanFrom rest tokens
    else if character = '"' then
      match hscan : Literal.scan rest [] with
      | some (pieces, after) =>
        have := Literal.length_of_scan hscan
        scanFrom after (string (.ofPieces pieces) :: tokens)
      | none => none
    else if beginsNumeral character then
      match Numeral.ofText? (character :: rest.takeWhile isNumeric) with
      | some numeral => scanFrom (rest.dropWhile isNumeric) (number numeral :: tokens)
      | none => none
    else if character.isAlpha then
      match word? (character :: rest.takeWhile Char.isAlpha) with
      | some token => scanFrom (rest.dropWhile Char.isAlpha) (token :: tokens)
      | none => none
    else
      match punctuation? character with
      | some token => scanFrom rest (token :: tokens)
      | none => none
termination_by text.length

/-- The tokens of a text. -/
def scan (text : List Char) : Option (List Token) := scanFrom text []

/-- The text of a token. -/
def text : Token → List Char
  | leftBrace => ['{']
  | rightBrace => ['}']
  | leftBracket => ['[']
  | rightBracket => [']']
  | comma => [',']
  | colon => [':']
  | null => "null".toList
  | bool true => "true".toList
  | bool false => "false".toList
  | number numeral => numeral.text
  | string literal => literal.write

end Token

end Lindenmayer
