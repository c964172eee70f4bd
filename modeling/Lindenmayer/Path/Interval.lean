/-!
# Intervals of parameters

A closed interval of single-precision numbers whose ends are in order; an infinite end is possible.
`Interval.clamp` brings a parameter into the interval. What is not a number stays what it is, for it
is neither before the interval nor after it.
-/

set_option autoImplicit false

namespace Lindenmayer

/-- A closed interval with its first end before its last. -/
structure Interval where
  first : Float32
  last : Float32
  first_lt_last : first < last

/-- Why two numbers are not the ends of an interval. -/
inductive IntervalError
  /-- The ends are equal, out of order, or not numbers. -/
  | invalid
deriving DecidableEq

/-- The wording of an unusable interval. -/
def IntervalError.message : IntervalError → String
  | invalid => "The resulting interval would be invalid (empty or with a NaN endpoint)"

namespace Interval

/-- The interval between two numbers, if they are in order. -/
def ofEnds (first last : Float32) : Except IntervalError Interval :=
  if h : first < last then .ok ⟨first, last, h⟩ else .error .invalid

/-- The interval from zero to one. -/
def unit : Interval := ⟨0, 1, by decide +kernel⟩

/-- Whether both ends are finite. -/
def isBounded (interval : Interval) : Bool := interval.first.isFinite && interval.last.isFinite

/-- Whether a parameter lies in the interval. -/
def contains (interval : Interval) (parameter : Float32) : Bool :=
  interval.first ≤ parameter && parameter ≤ interval.last

/-- The point of the interval nearest to a parameter. -/
def clamp (interval : Interval) (parameter : Float32) : Float32 :=
  let raised := if parameter < interval.first then interval.first else parameter
  if interval.last < raised then interval.last else raised

end Interval

end Lindenmayer
