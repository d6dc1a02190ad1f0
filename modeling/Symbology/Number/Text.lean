import Symbology.Number.Shortest

set_option autoImplicit false

/-! # Text of floating-point numbers

A number is written with the fewest digits that read back. A `DecimalStyle` holds what is left to
choose: which numbers are written without an exponent, whether a whole number keeps a fraction and
an exponent its plus sign, how a tie between two equally short and near spellings goes, and the word
for infinity. -/

namespace Symbology

open Float.Model (UnpackedFloat Format)

/-- The choices in the text of a number. -/
structure DecimalStyle where
  /-- Which of two equally short and near decimals is written. -/
  tie : Decimal.Tie
  /-- Whether a number with this place of the decimal point is written without an exponent. -/
  positional : Int → Bool
  /-- Whether a whole number is written with the fraction `.0`. -/
  wholeFraction : Bool
  /-- Whether an exponent that is not negative is written with a plus sign. -/
  plusSign : Bool
  /-- The word for infinity. -/
  infinity : String

namespace DecimalStyle

/-- Never an exponent, no fraction on a whole number, and a tie goes up. -/
def plain : DecimalStyle := ⟨.up, fun _ => true, false, false, "inf"⟩

/-- The plain style with the whole word for infinity. -/
def spelled : DecimalStyle := { plain with infinity := "Infinity" }

/-- Numbers from `0.00001` up to but not including `10 ^ 16` have no exponent, a whole number keeps
a fraction, and a tie goes to the even digit. -/
def json : DecimalStyle :=
  ⟨.even, fun point => decide (-4 ≤ point) && decide (point ≤ 16), true, true, "null"⟩

/-- Numbers from `0.0001` up to but not including `10 ^ 16` have no exponent, a whole number keeps
a fraction, an exponent has no plus sign, and a tie goes up. -/
def diagnostic : DecimalStyle :=
  ⟨.up, fun point => decide (-3 ≤ point) && decide (point ≤ 16), true, false, "inf"⟩

/-- A decimal without an exponent: zeros fill the places up to the point. -/
def positionalText (style : DecimalStyle) (d : Decimal) : List Char :=
  let whole := if style.wholeFraction then ['.', '0'] else []
  if 0 ≤ d.exponent then d.digits ++ List.replicate d.exponent.toNat '0' ++ whole
  else if 0 < d.point then
    d.digits.take d.point.toNat ++ '.' :: d.digits.drop d.point.toNat
  else '0' :: '.' :: List.replicate (-d.point).toNat '0' ++ d.digits

/-- The sign of an exponent, if it is written. -/
def exponentSign (style : DecimalStyle) (e : Int) : Option Char :=
  if e < 0 then some '-' else if style.plusSign then some '+' else none

/-- The digits of an exponent behind its sign. -/
def exponentText (style : DecimalStyle) (e : Int) : List Char :=
  (style.exponentSign e).toList ++ Nat.toDigits 10 e.natAbs

/-- A decimal with one digit before the point and an exponent. -/
def scientificText (style : DecimalStyle) (d : Decimal) : List Char :=
  let mantissa := match d.digits with
    | [] => []
    | [c] => [c]
    | c :: rest => c :: '.' :: rest
  mantissa ++ 'e' :: style.exponentText (d.point - 1)

/-- The text of a decimal, with or without an exponent. -/
def decimalText (style : DecimalStyle) (d : Decimal) : List Char :=
  if style.positional d.point then style.positionalText d else style.scientificText d

/-- A minus sign before the text of a negative number. -/
def signed (sign : UnpackedFloat.Sign) (text : List Char) : List Char :=
  match sign with
  | .negative => '-' :: text
  | .positive => text

/-- The text of a number of a format, which is that of the shortest decimal that reads back. -/
def text (style : DecimalStyle) (spec : Format) : UnpackedFloat → List Char
  | .notANumber => "NaN".toList
  | .infinity sign => signed sign style.infinity.toList
  | .zero sign => signed sign (style.positionalText ⟨0, 0⟩)
  | .finite sign mantissa exponent _ =>
    let narrowBelow :=
      mantissa == Nat.pow 2 spec.mantissaBitsWithoutImplicit && decide (spec.minExponent < exponent)
    signed sign (style.decimalText (Decimal.Binary.shortest style.tie
      ⟨mantissa, exponent, narrowBelow⟩))

/-- The text of a number in double precision. -/
def ofFloat (style : DecimalStyle) (x : Float) : List Char :=
  style.text .binary64 x.toModel.unpack

/-- The text of a number in single precision. -/
def ofFloat32 (style : DecimalStyle) (x : Float32) : List Char :=
  style.text .binary32 x.toModel.unpack

end DecimalStyle

end Symbology
