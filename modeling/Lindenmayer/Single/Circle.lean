import Lindenmayer.Single.Rounding

/-!
# Sine and cosine of single-precision numbers

Both functions return the exact value rounded once. The computation is in fixed point: a natural
number stands for itself divided by `one`, which is a power of two with enough digits that the
largest single still leaves more than a hundred correct binary digits after it is reduced to the
first quadrant. No sine or cosine of a nonzero single is near enough to the middle between two
singles for the remaining error to matter.

The alternating series of Taylor are nested differences, so no negative number occurs and a cosine
never exceeds `one` (`alternating_le`).
-/

set_option autoImplicit false

namespace Lindenmayer.Single

/-- How many binary digits a fixed-point number has after the point. -/
def fractionBits : Nat := 320

/-- The fixed-point number for one. -/
def one : Nat := 1 <<< fractionBits

/-- The first `terms` terms of `power / step - power' / (step + 2) + ...`, where each power is the
one before divided by `square`. -/
def arctangentSeries (square : Nat) : (terms step power : Nat) → Nat
  | 0, _, _ => 0
  | terms + 1, step, power =>
    power / step - arctangentSeries square terms (step + 2) (power / square)

/-- The fixed-point arc tangent of the reciprocal of `number`. -/
def arctangentOfReciprocal (number : Nat) : Nat :=
  arctangentSeries (number * number) 100 1 (one / number)

/-- The fixed-point quarter turn: twice the difference of four arc tangents of a fifth and one of
the reciprocal of 239. -/
def quarterTurn : Nat := 2 * (4 * arctangentOfReciprocal 5 - arctangentOfReciprocal 239)

/-- The first `terms` terms of the series `term - term' + term'' - ...`, where each term is the one
before times `square`, divided by two successive numbers from `step` on. -/
def alternating (square : Nat) : (terms step term : Nat) → Nat
  | 0, _, _ => 0
  | terms + 1, step, term =>
    term - alternating square terms (step + 2) ((term * square) >>> fractionBits / (step * (step + 1)))

/-- A series of alternating terms is at most its first term. -/
theorem alternating_le (square terms step term : Nat) : alternating square terms step term ≤ term := by
  cases terms with
  | zero => exact Nat.zero_le term
  | succ terms => exact Nat.sub_le term _

/-- The number of terms of a sine or cosine series: for an eighth of a turn the terms after these
are below one unit of the last place. -/
def seriesTerms : Nat := 34

/-- The fixed-point sine of an angle up to an eighth of a turn. -/
def sineSeries (angle : Nat) : Nat :=
  alternating ((angle * angle) >>> fractionBits) seriesTerms 2 angle

/-- The fixed-point cosine of an angle up to an eighth of a turn. -/
def cosineSeries (angle : Nat) : Nat :=
  alternating ((angle * angle) >>> fractionBits) seriesTerms 1 one

/-- The fixed-point sine of an angle up to a quarter turn; beyond an eighth it is the cosine of what
is missing to the quarter. -/
def quadrantSine (angle : Nat) : Nat :=
  if 2 * angle ≤ quarterTurn then sineSeries angle else cosineSeries (quarterTurn - angle)

/-- The fixed-point cosine of an angle up to a quarter turn; beyond an eighth it is the sine of what
is missing to the quarter. -/
def quadrantCosine (angle : Nat) : Nat :=
  if 2 * angle ≤ quarterTurn then cosineSeries angle else sineSeries (quarterTurn - angle)

/-- A number without its last `surplus` binary digits. An odd last digit stands for
whatever was dropped, so that the rest is still on the same side of every shorter number. -/
def dropPlaces (number surplus : Nat) : Nat :=
  let kept := number >>> surplus
  if kept <<< surplus = number then kept else kept ||| 1

/-- A fixed-point number with a sign as a single. Sixty-four of its digits decide. -/
def ofFixed (negative : Bool) (number : Nat) : Float32 :=
  let surplus := number.log2 - 63
  ofDyadic (if negative then .negative else .positive) (dropPlaces number surplus)
    (surplus - fractionBits)

/-- A finite nonzero number's magnitude in fixed point; no single needs more digits than there are.
-/
def toFixed (mantissa : Nat) (exponent : Int) : Nat :=
  mantissa <<< (exponent + fractionBits).toNat

/-- The sine of an angle in radians. -/
def sin (angle : Float32) : Float32 :=
  match parts angle with
  | .finite sign mantissa exponent _ =>
    let magnitude := toFixed mantissa exponent
    let rest := magnitude % quarterTurn
    let negative := sign == .negative
    match magnitude / quarterTurn % 4 with
    | 0 => ofFixed negative (quadrantSine rest)
    | 1 => ofFixed negative (quadrantCosine rest)
    | 2 => ofFixed (!negative) (quadrantSine rest)
    | _ => ofFixed (!negative) (quadrantCosine rest)
  | .zero _ => angle
  | _ => notANumber

/-- The cosine of an angle in radians. -/
def cos (angle : Float32) : Float32 :=
  match parts angle with
  | .finite _ mantissa exponent _ =>
    let magnitude := toFixed mantissa exponent
    let rest := magnitude % quarterTurn
    match magnitude / quarterTurn % 4 with
    | 0 => ofFixed false (quadrantCosine rest)
    | 1 => ofFixed true (quadrantSine rest)
    | 2 => ofFixed true (quadrantCosine rest)
    | _ => ofFixed false (quadrantSine rest)
  | .zero _ => 1
  | _ => notANumber

end Lindenmayer.Single
