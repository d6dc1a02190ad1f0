import Symbology.Number.Rounding

set_option autoImplicit false

/-! # Exact operations on floating-point numbers

A floating-point number is decoded into a sign, a whole mantissa and a power of two
(`Float.Model.unpack`). On that form the operations below are exact whole-number arithmetic
followed by at most one rounding, which goes to the nearest number and on a tie to the even
mantissa. -/

namespace Symbology.Number

open Float.Model (UnpackedFloat)
open Float.Model.UnpackedFloat (Sign)

/-- The single-precision number nearest to `x`; infinities and "not a number" are kept. -/
def narrow (x : Float) : Float32 :=
  match x.toModel.unpack with
  | .finite sign mantissa exponent _ => singleOfBinary sign mantissa exponent
  | special => .ofModel (Float32.Model.pack special)

/-! ## Remainder -/

/-- The remainder of `x` divided by `y` with the sign of `x`: the exact number `x - n · y` for the
whole number `n` next to the quotient on the side of zero. -/
def remainder (x y : Float) : Float :=
  match x.toModel.unpack, y.toModel.unpack with
  | .notANumber, _ | _, .notANumber | .infinity _, _ | _, .zero _ => 0.0 / 0.0
  | .zero _, _ | _, .infinity _ => x
  | .finite sign m₁ e₁ _, .finite _ m₂ e₂ _ =>
    let e := min e₁ e₂
    ofBinary sign (scale 2 (e₁ - e) m₁ % scale 2 (e₂ - e) m₂) e

/-! ## Whole single-precision numbers -/

/-- The greatest whole number that is at most `x`. -/
def floor (x : Float32) : Float32 :=
  match x.toModel.unpack with
  | .finite sign mantissa (.negSucc e) _ =>
    let one := Nat.pow 2 (e + 1)
    match sign with
    | .positive => singleOfBinary .positive (mantissa / one) 0
    | .negative => singleOfBinary .negative ((mantissa + one - 1) / one) 0
  | _ => x

/-- The whole number nearest to `x`, a half going away from zero. -/
def roundHalfAway (x : Float32) : Float32 :=
  match x.toModel.unpack with
  | .finite sign mantissa (.negSucc e) _ =>
    singleOfBinary sign ((mantissa + Nat.pow 2 e) / Nat.pow 2 (e + 1)) 0
  | _ => x

/-- `x` brought into the range from `low` to `high`; "not a number" stays as it is. -/
def clamp (low high x : Float32) : Float32 :=
  if x < low then low else if high < x then high else x

end Symbology.Number
