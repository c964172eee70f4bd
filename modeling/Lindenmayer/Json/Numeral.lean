import Lindenmayer.Single.Rounding

/-!
# Numerals

A numeral is kept as it is written: a sign, decimal digits and a power of ten, and whether it is
plain, which means written without a point and without an exponent. Only zeros at the end of a
fraction are not kept. So nothing is rounded before it is known what the number is for. A count can
be read from a plain numeral only. `Numeral.single?` reads a single from any numeral that is not
beyond all singles, and `Numeral.ofSingle?` writes a finite single with all its decimal digits.

A long numeral is abridged before it is rounded. No value midway between two neighbouring singles
has more than `Numeral.decidingDigits` decimal digits, so of the digits after these it matters only
that there are some; zeros before the point count as digits too.
-/

set_option autoImplicit false

namespace Lindenmayer

/-- The number `digits * 10 ^ exponent`, or its opposite. -/
structure Numeral where
  negative : Bool := false
  digits : Nat
  exponent : Int := 0
  /-- The numeral has neither a point nor an exponent. -/
  plain : Bool := true
  /-- Where no exponent is written, there is none. -/
  exponent_eq_zero : plain = true → exponent = 0 := by simp
deriving DecidableEq

instance : Inhabited Numeral := ⟨{ digits := 0 }⟩

namespace Numeral

/-! ### Numbers of numerals -/

/-- The plain numeral of a natural number. -/
def ofNat (number : Nat) : Numeral := { digits := number }

/-- The natural number of a plain numeral without a sign. -/
def toNat? (numeral : Numeral) : Option Nat :=
  if numeral.plain && !numeral.negative then some numeral.digits else none

/-- The integer of a plain numeral. -/
def toInt? (numeral : Numeral) : Option Int :=
  if numeral.plain then
    some (if numeral.negative then -(numeral.digits : Int) else numeral.digits)
  else none

/-- The single nearest to a numeral. A negative sign is kept by a zero too. -/
def toSingle (numeral : Numeral) : Float32 :=
  let magnitude :=
    Float32.ofScientific numeral.digits (numeral.exponent < 0) numeral.exponent.natAbs
  if numeral.negative then -magnitude else magnitude

/-- The double nearest to a numeral. -/
def toDouble (numeral : Numeral) : Float :=
  let magnitude :=
    Float.ofScientific numeral.digits (numeral.exponent < 0) numeral.exponent.natAbs
  if numeral.negative then -magnitude else magnitude

/-- How many digits of a numeral decide which single is nearest. -/
def decidingDigits : Nat := 113

/-- How many digits of a numeral stand after the deciding ones. -/
def surplus (numeral : Numeral) : Nat :=
  (Nat.toDigits 10 numeral.digits).length - decidingDigits

/-- A numeral cut after its deciding digits. One more digit, a one, stands for all that is cut off,
and moves a numeral that would lie midway between two singles away from zero. -/
def abridge (numeral : Numeral) : Numeral :=
  if numeral.surplus = 0 then numeral
  else
    { negative := numeral.negative
      digits := 10 * (numeral.digits / Nat.pow 10 numeral.surplus) + 1
      exponent := numeral.exponent + (numeral.surplus - 1 : Nat), plain := false }

/-- Whether a plain numeral is negative and its digits fit a word of 64 bits, but not together with
the sign. -/
def isBelowSigned (numeral : Numeral) : Bool :=
  numeral.plain && numeral.negative && UInt64.size / 2 < numeral.digits &&
    numeral.digits < UInt64.size

/-- How many binary digits of a full word of 64 bits have no place in a double. -/
def surplusPlaces : Nat := 11

/-- A natural number without the surplus binary digits of a word, rounded to the nearest; a tie
goes to the even number. -/
def dropSurplusPlaces (word : Nat) : Nat :=
  let unit := Nat.pow 2 surplusPlaces
  (word + (unit / 2 - 1) + word / unit % 2) / unit

/-- The single that a numeral is read as, if it is not beyond all singles. A numeral is rounded
once, except that a negative one below the signed words is rounded to a double on the way. -/
def single? (numeral : Numeral) : Option Float32 :=
  let single :=
    if numeral.isBelowSigned then
      Single.ofDyadic .negative (dropSurplusPlaces numeral.digits) surplusPlaces
    else numeral.abridge.toSingle
  if single.isFinite then some single else none

/-- All decimal digits of a finite single: a negative power of two is a power of five over a power
of ten. -/
def ofSingle? (number : Float32) : Option Numeral :=
  match Single.parts number with
  | .finite sign mantissa exponent _ =>
    let negative := sign == .negative
    some <|
      if exponent < 0 then
        { negative, digits := mantissa * Nat.pow 5 exponent.natAbs, exponent, plain := false }
      else { negative, digits := mantissa <<< exponent.natAbs, plain := false }
  | .zero sign => some { negative := sign == .negative, digits := 0, plain := false }
  | _ => none

/-! ### The text of a numeral -/

/-- A run of decimal digits as a natural number. -/
def ofDigits (digits : List Char) : Nat :=
  digits.foldl (fun number digit ↦ 10 * number + (digit.toNat - '0'.toNat)) 0

/-- Whether a run of digits can stand before the point: it is `0` or begins with another digit. -/
def isWhole : List Char → Bool
  | [] => false
  | [_] => true
  | digit :: _ => digit != '0'

/-- The exponent after the letter that announces it, with its sign; absent where nothing follows. -/
def readExponent : List Char → Option (Option Int)
  | [] => some none
  | letter :: text =>
    if letter = 'e' ∨ letter = 'E' then
      match text with
      | '-' :: text => (number? text).map fun number ↦ some (-number)
      | '+' :: text => (number? text).map some
      | text => (number? text).map some
    else none
where
  /-- A run of digits with nothing after it. -/
  number? (text : List Char) : Option Int :=
    if text ≠ [] ∧ text.all Char.isDigit then some (ofDigits text) else none

/-- A run of digits without the zeros at its end. -/
def dropEndZeros (digits : List Char) : List Char := (digits.reverse.dropWhile (· = '0')).reverse

/-- A fraction and an exponent, each of which may be absent, after the digits `whole`. -/
def readFraction (negative : Bool) (whole : List Char) : List Char → Option Numeral
  | '.' :: text =>
    let (digits, text) := text.span Char.isDigit
    if digits = [] then none
    else
      let fraction := dropEndZeros digits
      (readExponent text).map fun exponent ↦
        { negative, digits := ofDigits (whole ++ fraction)
          exponent := exponent.getD 0 - fraction.length, plain := false }
  | text =>
    (readExponent text).map fun exponent ↦
      { negative, digits := ofDigits whole, exponent := exponent.getD 0
        plain := exponent.isNone
        exponent_eq_zero := fun hplain ↦ by rw [Option.isNone_iff_eq_none.mp hplain]; rfl }

/-- The digits before the point and all that follows them. -/
def readWhole (negative : Bool) (text : List Char) : Option Numeral :=
  let (whole, text) := text.span Char.isDigit
  if isWhole whole then readFraction negative whole text else none

/-- The numeral that a text spells, from its first to its last character. -/
def ofText? : List Char → Option Numeral
  | '-' :: text => readWhole true text
  | text => readWhole false text

/-- The text of a numeral. -/
def text (numeral : Numeral) : List Char :=
  (if numeral.negative then ['-'] else []) ++ Nat.toDigits 10 numeral.digits ++
    if numeral.plain then [] else 'e' :: (toString numeral.exponent).toList

end Numeral

end Lindenmayer
