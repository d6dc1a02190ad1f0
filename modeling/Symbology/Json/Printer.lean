import Symbology.Json.Basic
import Symbology.Number.Text

set_option autoImplicit false

/-! # Text of JSON values

A value is written without spaces. In a string only the quotation mark, the backslash and the
control characters below U+0020 are escaped. The canonical text of a value is that of its sorted
copy, so it does not depend on the order in which the members of an object were written. -/

namespace Symbology.Json

/-- A character inside of a string. Quotation marks, backslashes and control characters are escaped,
and nothing else is. -/
def escapedChar (c : Char) : List Char :=
  if c = '"' ∨ c = '\\' then ['\\', c]
  else if c = '\x08' then ['\\', 'b']
  else if c = '\x0c' then ['\\', 'f']
  else if c = '\n' then ['\\', 'n']
  else if c = '\r' then ['\\', 'r']
  else if c = '\t' then ['\\', 't']
  else if c.toNat < 0x20 then
    ['\\', 'u', '0', '0', Nat.digitChar (c.toNat / 16), Nat.digitChar (c.toNat % 16)]
  else [c]

/-- A string between quotation marks. -/
def stringChars (s : String) : List Char :=
  '"' :: (s.toList.flatMap escapedChar ++ ['"'])

/-- An integer in decimal digits, with a minus sign if it is negative. -/
def integerChars : Int → List Char
  | .ofNat n => Nat.toDigits 10 n
  | .negSucc n => '-' :: Nat.toDigits 10 (n + 1)

/-- A number: integers in all their digits, and others with the fewest that read back. -/
def Number.chars : Number → List Char
  | .integer n => integerChars n
  | .float x _ => DecimalStyle.json.ofFloat x

mutual

/-- The text of a value without any blanks, with members in the order in which they stand. -/
def chars : Json → List Char
  | .null => "null".toList
  | .bool true => "true".toList
  | .bool false => "false".toList
  | .number n => n.chars
  | .string s => stringChars s
  | .array [] => ['[', ']']
  | .array (json :: rest) => '[' :: (chars json ++ itemsChars rest)
  | .object [] => ['\x7b', '\x7d']
  | .object ((key, json) :: rest) =>
    '\x7b' :: (stringChars key ++ ':' :: (chars json ++ membersChars rest))

/-- The items behind the first one, each behind a comma, and the end of the array. -/
def itemsChars : List Json → List Char
  | [] => [']']
  | json :: rest => ',' :: (chars json ++ itemsChars rest)

/-- The members behind the first one, each behind a comma, and the end of the object. -/
def membersChars : List (String × Json) → List Char
  | [] => ['\x7d']
  | (key, json) :: rest =>
    ',' :: (stringChars key ++ ':' :: (chars json ++ membersChars rest))

end

/-- The text of a value without any blanks. -/
def compact (json : Json) : String :=
  String.ofList json.chars

/-- The text of a value with the members of every object in ascending order. -/
def canonical (json : Json) : String :=
  json.sorted.compact

end Symbology.Json
