/-!
# Exact values of single-precision numbers

A finite nonzero single is a sign, a natural mantissa and a power of two, and every operation on
singles is the exact operation on such values followed by rounding. `ofDyadic` is the rounding: the
single nearest to a signed mantissa times a power of two, a tie going to the even mantissa, and an
infinity where the value is beyond all singles. The sign, the mantissa and the exponent of a number
are read off with `parts`.
-/

set_option autoImplicit false

namespace Lindenmayer.Single

open Float.Model (Format UnpackedFloat)

/-- The sign, mantissa and power of two of a number, or what it is instead of a finite nonzero
number. -/
def parts (number : Float32) : UnpackedFloat := number.toModel.unpack

/-- The single nearest to `mantissa * 2 ^ exponent` with the given sign. -/
def ofDyadic (sign : UnpackedFloat.Sign) (mantissa : Nat) (exponent : Int) : Float32 :=
  Float32.ofModel <| Float32.Model.pack <|
    if mantissa = 0 then .zero sign else UnpackedFloat.round Format.binary32 sign mantissa exponent

/-- The result of an operation without one. -/
def notANumber : Float32 := Float32.ofModel (Float32.Model.pack .notANumber)

/-- The circle's half circumference over its radius, rounded to the nearest single. -/
def pi : Float32 := Float32.ofBits 0x40490fdb

/-- Twice `pi`. -/
def tau : Float32 := Float32.ofBits 0x40c90fdb

/-- Half of `pi`, a quarter turn. -/
def halfPi : Float32 := Float32.ofBits 0x3fc90fdb

/-- A third of the half circumference, rounded to the nearest single: a sixth of a turn. -/
def thirdPi : Float32 := Float32.ofBits 0x3f860a92

/-- The gap between one and the next larger single. -/
def epsilon : Float32 := Float32.ofBits 0x34000000

end Lindenmayer.Single
