import Symbology.Text.Printable

set_option autoImplicit false

/-! # Quoted text in messages

A message shows an author's text between double quotes, on one line: quotes and backslashes are
escaped, and a character that is not printable is shown by its number. -/

namespace Symbology.Text

/-- A number in hexadecimal digits, without leading zeros. -/
def hexDigits (n : Nat) : List Char :=
  Nat.toDigits 16 n

/-- A character inside of a quoted text. What is not printed is shown by an escape. -/
def quotedChar (c : Char) : List Char :=
  if c = '"' ∨ c = '\\' then ['\\', c]
  else if c = '\t' then ['\\', 't']
  else if c = '\r' then ['\\', 'r']
  else if c = '\n' then ['\\', 'n']
  else if c.toNat = 0 then ['\\', '0']
  else if isPrintable c then [c]
  else ['\\', 'u', '\x7b'] ++ hexDigits c.toNat ++ ['\x7d']

/-- A text between quotation marks, as it is shown in messages. -/
def quoted (text : String) : String :=
  String.ofList ('"' :: (text.toList.flatMap quotedChar ++ ['"']))

end Symbology.Text
