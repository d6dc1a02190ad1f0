import Symbology.Number.Decimal

set_option autoImplicit false

/-! # Decimal numerals

A numeral is an optional sign, digits, an optional fraction and an optional exponent.
`Numeral.read?` cuts a text into these parts and `Numeral.chars` puts them together again. Two
grammars choose from the numerals: the free one (`Numeral.free`) needs a digit somewhere before
the exponent, the one of JSON (`Numeral.strict`) forbids a plus sign, idle leading zeros and a
bare decimal point. Both need a digit in an exponent. -/

namespace Symbology

/-- The parts of a numeral as they are written. -/
structure Numeral where
  /-- The sign, when one is written. -/
  sign : Option Char
  /-- The digits before the decimal point. -/
  whole : List Char
  /-- The digits after the decimal point, when there is a point. -/
  fraction : Option (List Char)
  /-- The letter, the sign and the digits of the exponent, when there is one. -/
  exponent : Option (Char × Option Char × List Char)
deriving DecidableEq, Repr

namespace Numeral

/-! ## Cutting a text into the parts of a numeral -/

/-- Whether the character is a plus or a minus sign. -/
def isSign (c : Char) : Bool :=
  c == '+' || c == '-'

/-- Whether the character opens an exponent. -/
def isExponentMark (c : Char) : Bool :=
  c == 'e' || c == 'E'

/-- The character may stand in a numeral. -/
def isNumeric (c : Char) : Bool :=
  c.isDigit || isSign c || isExponentMark c || c == '.'

/-- The sign at the front of a text, if there is one, and the text behind it. -/
def takeSign : List Char → Option Char × List Char
  | [] => (none, [])
  | c :: rest => if isSign c then (some c, rest) else (none, c :: rest)

/-- Takes the fraction off the front of a text: a point and the digits behind it. -/
def takeFraction : List Char → Option (List Char) × List Char
  | [] => (none, [])
  | c :: rest =>
    if c == '.' then (some (rest.takeWhile Char.isDigit), rest.dropWhile Char.isDigit)
    else (none, c :: rest)

/-- Takes the exponent off the front of a text: a letter, a sign and the digits behind it. -/
def takeExponent : List Char → Option (Char × Option Char × List Char) × List Char
  | [] => (none, [])
  | c :: rest =>
    if isExponentMark c then
      let (sign, rest) := takeSign rest
      (some (c, sign, rest.takeWhile Char.isDigit), rest.dropWhile Char.isDigit)
    else (none, c :: rest)

/-- The numeral that is spelled by the whole of a text. Its parts may be empty. -/
def read? (text : List Char) : Option Numeral :=
  let (sign, rest) := takeSign text
  let whole := rest.takeWhile Char.isDigit
  let (fraction, rest) := takeFraction (rest.dropWhile Char.isDigit)
  let (exponent, rest) := takeExponent rest
  if rest.isEmpty then some ⟨sign, whole, fraction, exponent⟩ else none

/-- The text of a numeral, part by part. -/
def chars (n : Numeral) : List Char :=
  let fraction := match n.fraction with
    | none => []
    | some digits => '.' :: digits
  let exponent := match n.exponent with
    | none => []
    | some (mark, sign, digits) => mark :: (sign.toList ++ digits)
  n.sign.toList ++ (n.whole ++ (fraction ++ exponent))

/-! ## Grammars -/

/-- The digits after the decimal point, none when there is no point. -/
def fractionDigits (n : Numeral) : List Char :=
  n.fraction.getD []

/-- The exponent, when there is one, has a digit. -/
def exponentComplete (n : Numeral) : Bool :=
  match n.exponent with
  | none => true
  | some (_, _, digits) => !digits.isEmpty

/-- The numeral has a digit before or after the point, and one in its exponent. -/
def free (n : Numeral) : Bool :=
  (!n.whole.isEmpty || !n.fractionDigits.isEmpty) && n.exponentComplete

/-- The numeral has no plus sign in front, one zero or digits that start with no zero before the
point, a digit behind a point, and one in its exponent. -/
def strict (n : Numeral) : Bool :=
  n.sign != some '+' && !n.whole.isEmpty && (n.whole.head? != some '0' || n.whole.length == 1) &&
    n.fraction != some [] && n.exponentComplete

/-! ## The number a numeral stands for -/

/-- Whether the sign is a minus. -/
def negative (n : Numeral) : Bool :=
  n.sign == some '-'

/-- The sign of the number. A numeral without a sign is positive. -/
def signValue (n : Numeral) : Float.Model.UnpackedFloat.Sign :=
  if n.negative then .negative else .positive

/-- The power of ten in the exponent, which is zero if there is no exponent. -/
def exponentValue (n : Numeral) : Int :=
  match n.exponent with
  | none => 0
  | some (_, sign, digits) =>
    let size := Nat.ofDigitChars 10 digits 0
    if sign == some '-' then -size else size

/-- The number without its sign, as the digits before and behind the point and a power of ten. -/
def magnitude (n : Numeral) : Decimal :=
  ⟨Nat.ofDigitChars 10 (n.whole ++ n.fractionDigits) 0, n.exponentValue - n.fractionDigits.length⟩

/-- The numeral is written without a point and without an exponent. -/
def isWhole (n : Numeral) : Bool :=
  n.fraction.isNone && n.exponent.isNone

/-- The double-precision number nearest to the numeral. -/
def toFloat (n : Numeral) : Float :=
  n.magnitude.toFloat n.signValue

/-- The single-precision number nearest to the numeral. -/
def toFloat32 (n : Numeral) : Float32 :=
  n.magnitude.toFloat32 n.signValue

/-- The numeral of the free grammar that the whole of `text` spells. -/
def readFree? (text : List Char) : Option Numeral :=
  (read? text).filter free

/-- The numeral of the grammar of JSON that the whole of `text` spells. -/
def readStrict? (text : List Char) : Option Numeral :=
  (read? text).filter strict

end Numeral

end Symbology
