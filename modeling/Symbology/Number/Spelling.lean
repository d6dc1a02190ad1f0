import Symbology.Number.Numeral

set_option autoImplicit false

/-! # Spellings of numbers

A number is spelled as a numeral of the free grammar, or as a word: `inf` and `infinity` stand for
infinity and `nan` stands for what is not a number. A word may have a sign too. -/

namespace Symbology.Number

/-- The number that a word in lower case stands for. -/
def ofWord? {α : Type} (infinity nan : α) (word : List Char) : Option α :=
  if word = "inf".toList ∨ word = "infinity".toList then some infinity
  else if word = "nan".toList then some nan
  else none

/-- The double-precision number that the whole of `text` spells; the case of a word does not
matter. -/
def double? (text : List Char) : Option Float :=
  match Numeral.readFree? text with
  | some numeral => some numeral.toFloat
  | none =>
    let (sign, word) := Numeral.takeSign text
    (ofWord? (1 / 0) (0 / 0) (word.map Char.toLower)).map (fun x =>
      if sign = some '-' then -x else x)

end Symbology.Number
