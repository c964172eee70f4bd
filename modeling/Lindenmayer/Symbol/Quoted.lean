import Lindenmayer.Symbol.Extending
import Lindenmayer.Symbol.Unprintable

/-!
# Quoted symbols

In a message a symbol stands between single quotes. A symbol that can be seen stands for itself,
apart from the quote and the backslash. The others are escaped: a few controls by a letter, all else
by the code point in hexadecimal digits.
-/

set_option autoImplicit false

namespace Lindenmayer.Quoted

/-- Whether a code point lies in one of the ranges. -/
def inRanges (ranges : List (Nat × Nat)) (code : Nat) : Bool :=
  ranges.any fun range ↦ range.1 ≤ code && code ≤ range.2

/-- Whether a symbol cannot be seen on its own. -/
def isInvisible (symbol : Char) : Bool :=
  inRanges extendingRanges symbol.toNat || inRanges unprintableRanges symbol.toNat

/-- The escape that names a code point. -/
def codePoint (symbol : Char) : List Char :=
  ['\\', 'u', '{'] ++ Nat.toDigits 16 symbol.toNat ++ ['}']

/-- A symbol as it stands between the quotes. -/
def escape (symbol : Char) : List Char :=
  match symbol with
  | '\x00' => ['\\', '0']
  | '\t' => ['\\', 't']
  | '\n' => ['\\', 'n']
  | '\r' => ['\\', 'r']
  | '\'' => ['\\', '\'']
  | '\\' => ['\\', '\\']
  | symbol => if isInvisible symbol then codePoint symbol else [symbol]

/-- A symbol between single quotes. -/
def symbol (symbol : Char) : String := String.ofList ('\'' :: (escape symbol ++ ['\'']))

end Lindenmayer.Quoted
