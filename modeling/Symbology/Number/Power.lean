set_option autoImplicit false

/-! # Powers of floating-point numbers -/

namespace Symbology.Number

/-- `base` to the power of `exponent`. A power with the exponent zero is one, and so is a power of
one, even if the other operand is "not a number". -/
def power (base exponent : Float) : Float :=
  if exponent == 0 || base == 1 then 1 else base ^ exponent

end Symbology.Number
