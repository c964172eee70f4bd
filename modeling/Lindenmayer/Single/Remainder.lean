import Lindenmayer.Single.Rounding

/-!
# Remainders of single-precision numbers

The remainder of a division with the sign of the dividend is a multiple of the smaller unit of the
two operands and smaller than the divisor, so it is itself a single: `remainder` is exact. `residue`
moves a negative remainder up by one modulus, and that addition rounds: the residue of a tiny
negative number is the modulus itself.
-/

set_option autoImplicit false

namespace Lindenmayer.Single

/-- What is left of `dividend` after taking away `divisor` as often as its magnitude allows. -/
def remainder (dividend divisor : Float32) : Float32 :=
  match parts dividend, parts divisor with
  | .finite sign mantissa exponent _, .finite _ mantissa' exponent' _ =>
    let unit := min exponent exponent'
    ofDyadic sign
      ((mantissa <<< (exponent - unit).toNat) % (mantissa' <<< (exponent' - unit).toNat)) unit
  | .finite .., .infinity _ => dividend
  | .zero _, .finite .. => dividend
  | .zero _, .infinity _ => dividend
  | _, _ => notANumber

/-- The remainder, moved up by the size of the modulus if it is negative. -/
def residue (number modulus : Float32) : Float32 :=
  let rest := remainder number modulus
  if rest < 0 then rest + modulus.abs else rest

end Lindenmayer.Single
