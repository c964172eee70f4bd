import Lindenmayer.Json.Token

/-!
# Documents

A document is a value: nothing, a truth value, a number, a string, a list of values or a list of
keys with values. `Json.tokens` writes a value as tokens. `Json.ofTokens?` reads one back, token by
token, with the brackets that are still open on a stack: what has been read of each list or object
waits there until its closing bracket comes.

Numbers keep their digits and objects keep the order and the repetitions of their keys, so the value
of a document is all that its tokens say.
-/

set_option autoImplicit false

namespace Lindenmayer

/-- The value of a document. -/
inductive Json
  | null
  | bool (value : Bool)
  | number (numeral : Numeral)
  | string (literal : Literal)
  | array (items : List Json)
  | object (entries : List (Literal × Json))
deriving Inhabited

namespace Json

/-! ### Writing -/

mutual

/-- The tokens of a value. -/
def tokens : Json → List Token
  | null => [.null]
  | bool value => [.bool value]
  | number numeral => [.number numeral]
  | string literal => [.string literal]
  | array items => .leftBracket :: itemTokens items
  | object entries => .leftBrace :: entryTokens entries

/-- The tokens of the items of a list, up to its closing bracket. -/
def itemTokens : List Json → List Token
  | [] => [.rightBracket]
  | item :: items => item.tokens ++ moreItemTokens items

/-- The tokens of the items after the first. -/
def moreItemTokens : List Json → List Token
  | [] => [.rightBracket]
  | item :: items => .comma :: (item.tokens ++ moreItemTokens items)

/-- The tokens of the entries of an object, up to its closing brace. -/
def entryTokens : List (Literal × Json) → List Token
  | [] => [.rightBrace]
  | (key, value) :: entries => .string key :: .colon :: (value.tokens ++ moreEntryTokens entries)

/-- The tokens of the entries after the first. -/
def moreEntryTokens : List (Literal × Json) → List Token
  | [] => [.rightBrace]
  | (key, value) :: entries =>
    .comma :: .string key :: .colon :: (value.tokens ++ moreEntryTokens entries)

end

/-- The text of a value, without blanks. -/
def render (json : Json) : String := String.ofList (json.tokens.flatMap Token.text)

/-! ### Reading -/

/-- A bracket that is still open, with what has been read inside it in reverse. -/
inductive Frame
  /-- A list. -/
  | array (items : List Json)
  /-- An object, with the key whose value is being read. -/
  | object (entries : List (Literal × Json)) (key : Literal)

/-- What has been read, and with it what can come next. -/
inductive Reader
  /-- A value has to come. -/
  | awaitValue (frames : List Frame)
  /-- A list has been opened: a value or its end. -/
  | awaitItem (frames : List Frame)
  /-- An object has been opened: a key or its end. -/
  | awaitEntry (frames : List Frame)
  /-- A key has to come, after the entries so far in reverse. -/
  | awaitKey (entries : List (Literal × Json)) (frames : List Frame)
  /-- A colon has to come. -/
  | awaitColon (entries : List (Literal × Json)) (key : Literal) (frames : List Frame)
  /-- A value is complete. -/
  | complete (value : Json) (frames : List Frame)

namespace Reader

/-- Takes the first token of a value. -/
def beginValue (frames : List Frame) : Token → Option Reader
  | .null => some (complete .null frames)
  | .bool value => some (complete (.bool value) frames)
  | .number numeral => some (complete (.number numeral) frames)
  | .string literal => some (complete (.string literal) frames)
  | .leftBracket => some (awaitItem frames)
  | .leftBrace => some (awaitEntry frames)
  | _ => none

/-- Takes the token after a value inside the innermost open bracket. -/
def endValue (value : Json) : List Frame → Token → Option Reader
  | .array items :: frames, .comma => some (awaitValue (.array (value :: items) :: frames))
  | .array items :: frames, .rightBracket =>
    some (complete (.array (value :: items).reverse) frames)
  | .object entries key :: frames, .comma => some (awaitKey ((key, value) :: entries) frames)
  | .object entries key :: frames, .rightBrace =>
    some (complete (.object ((key, value) :: entries).reverse) frames)
  | _, _ => none

/-- Takes a token. -/
def step : Reader → Token → Option Reader
  | awaitValue frames, token => beginValue frames token
  | awaitItem frames, .rightBracket => some (complete (.array []) frames)
  | awaitItem frames, token => beginValue (.array [] :: frames) token
  | awaitEntry frames, .rightBrace => some (complete (.object []) frames)
  | awaitEntry frames, .string key => some (awaitColon [] key frames)
  | awaitKey entries frames, .string key => some (awaitColon entries key frames)
  | awaitColon entries key frames, .colon => some (awaitValue (.object entries key :: frames))
  | complete value frames, token => endValue value frames token
  | _, _ => none

end Reader

/-- The value that a sequence of tokens spells, from its first to its last. -/
def ofTokens? (tokens : List Token) : Option Json :=
  match tokens.foldlM Reader.step (.awaitValue []) with
  | some (.complete value []) => some value
  | _ => none

/-- The value of a text. -/
def parse? (text : String) : Option Json := (Token.scan text.toList).bind ofTokens?

end Json

end Lindenmayer
