import Symbology.Number.Rounding

set_option autoImplicit false

/-! # Decimal numbers

A decimal number without sign: a coefficient and a power of ten. It is what a numeral spells and
what a floating-point number is printed through. -/

namespace Symbology

open Float.Model (UnpackedFloat Format)
open Float.Model.UnpackedFloat (Sign)

/-- The number `coefficient · 10 ^ exponent`. -/
structure Decimal where
  /-- The digits of the number, read as a whole number. -/
  coefficient : Nat
  /-- The power of ten of the last digit. -/
  exponent : Int
deriving DecidableEq, Repr

namespace Decimal

/-- The digits of the coefficient, without leading zeros. -/
def digits (d : Decimal) : List Char :=
  Nat.toDigits 10 d.coefficient

/-- The place of the decimal point, counted from the front of the digits: the number is
`0.d₁d₂… · 10 ^ point`. -/
def point (d : Decimal) : Int :=
  d.digits.length + d.exponent

/-- The number of a format that is nearest to `d`, with a sign. Numbers beyond `10 ^ 400` are
infinite and numbers below `10 ^ (-400)` are zero in both formats at hand, so their powers of ten
need not be computed. -/
def round (spec : Format) (sign : Sign) (d : Decimal) : UnpackedFloat :=
  if d.coefficient = 0 ∨ d.point < -400 then .zero sign
  else if 400 < d.point then .infinity sign
  else Number.roundRatio spec sign (Number.scale 10 d.exponent d.coefficient)
    (Number.scale 10 (-d.exponent) 1)

/-- The double-precision number nearest to `d`; beyond the largest one it is infinity. -/
def toFloat (sign : Sign) (d : Decimal) : Float :=
  .ofModel (Float.Model.pack (d.round .binary64 sign))

/-- The single-precision number nearest to `d`; beyond the largest one it is infinity. -/
def toFloat32 (sign : Sign) (d : Decimal) : Float32 :=
  .ofModel (Float32.Model.pack (d.round .binary32 sign))

end Decimal

end Symbology
