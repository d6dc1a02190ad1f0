set_option autoImplicit false

/-! # Rounding to floating-point numbers

A positive fraction is rounded to the nearest number of a floating-point format, and on a tie to
the one with the even mantissa. The last place of the result is found first; it is the power of
two that leaves just as many binary digits as the format has, but never below the least power of
the format. The fraction is then divided by it and rounded to a whole number, the mantissa. -/

namespace Symbology.Number

open Float.Model (UnpackedFloat Format)
open Float.Model.UnpackedFloat (Sign)

/-- The number `x · base ^ exponent` where the exponent is positive, and else just `x`. Shifting the
numerator by an exponent and the denominator by its opposite multiplies a fraction exactly. -/
def scale (base : Nat) (exponent : Int) (x : Nat) : Nat :=
  x * Nat.pow base exponent.toNat

/-- The whole number nearest to a fraction; a half goes to the even one. -/
def roundQuotient (numerator denominator : Nat) : Nat :=
  let quotient := numerator / denominator
  let twice := 2 * (numerator % denominator)
  if twice < denominator then quotient
  else if denominator < twice then quotient + 1
  else quotient + quotient % 2

/-- The exponent of the least power of two that is above a fraction. -/
def binade (numerator denominator : Nat) : Int :=
  let guess : Int := numerator.log2 - denominator.log2
  -- the guess is right or too small by one
  if scale 2 (-guess) numerator < scale 2 guess denominator then guess else guess + 1

/-- The power of two of the last place that a fraction has in a format. -/
def lastPlace (spec : Format) (numerator denominator : Nat) : Int :=
  max (binade numerator denominator - spec.mantissaBits) spec.minExponent

/-- A mantissa and the power of two of its last place. A mantissa that needs one digit too many is a
power of two, and loses its last digit. -/
def canonical (spec : Format) (sign : Sign) (mantissa : Nat) (exponent : Int) : UnpackedFloat :=
  if mantissa = Nat.pow 2 spec.mantissaBits then
    .finite sign (Nat.pow 2 spec.mantissaBitsWithoutImplicit) (exponent + 1) (Nat.two_pow_pos _)
  else if h : 0 < mantissa then .finite sign mantissa exponent h
  else .zero sign

/-- The number of a format that is nearest to a fraction, with a sign. Its exponent may be too great
for the format; such a number is packed as infinity. -/
def roundRatio (spec : Format) (sign : Sign) (numerator denominator : Nat) : UnpackedFloat :=
  let place := lastPlace spec numerator denominator
  canonical spec sign
    (roundQuotient (scale 2 (-place) numerator) (scale 2 place denominator)) place

/-! ## The two formats -/

/-- The double-precision number that is nearest to a fraction. -/
def ofRatio (sign : Sign) (numerator denominator : Nat) : Float :=
  .ofModel (Float.Model.pack (roundRatio .binary64 sign numerator denominator))

/-- The single-precision number that is nearest to a fraction. -/
def singleOfRatio (sign : Sign) (numerator denominator : Nat) : Float32 :=
  .ofModel (Float32.Model.pack (roundRatio .binary32 sign numerator denominator))

/-- The double-precision number that is nearest to `± mantissa · 2 ^ exponent`. -/
def ofBinary (sign : Sign) (mantissa : Nat) (exponent : Int) : Float :=
  ofRatio sign (scale 2 exponent mantissa) (scale 2 (-exponent) 1)

/-- The single-precision number that is nearest to `± mantissa · 2 ^ exponent`. -/
def singleOfBinary (sign : Sign) (mantissa : Nat) (exponent : Int) : Float32 :=
  singleOfRatio sign (scale 2 exponent mantissa) (scale 2 (-exponent) 1)

/-- The double-precision number that is nearest to an integer. -/
def ofInt : Int → Float
  | .ofNat n => ofRatio .positive n 1
  | .negSucc n => ofRatio .negative (n + 1) 1

end Symbology.Number
