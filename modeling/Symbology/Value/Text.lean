import Symbology.Json.Printer
import Symbology.Value.Basic

set_option autoImplicit false

/-! # Text of values

The text of a scalar is its plain form: nothing for `null`, a string as it is, a number without
an exponent. The text of an array or an object is JSON, in which numbers are written in that plain
form too. -/

namespace Symbology.Value

/-- The word for a truth value. -/
def boolChars (b : Bool) : List Char :=
  if b then "true".toList else "false".toList

/-- A number inside of an array or an object, where `null` stands for one that is not finite. -/
def numberChars (x : Float) : List Char :=
  if x.isFinite then DecimalStyle.plain.ofFloat x else "null".toList

mutual

/-- A value as JSON. A color is a string with its text. -/
def jsonChars : Value → List Char
  | .null => "null".toList
  | .bool b => boolChars b
  | .number x => numberChars x
  | .string s => Json.stringChars s
  | .color c => '"' :: (c.chars ++ ['"'])
  | .array [] => ['[', ']']
  | .array (value :: rest) => '[' :: (jsonChars value ++ jsonItemsChars rest)
  | .object [] => ['\x7b', '\x7d']
  | .object ((key, value) :: rest) =>
    '\x7b' :: (Json.stringChars key ++ ':' :: (jsonChars value ++ jsonMembersChars rest))

/-- The items behind the first one, each behind a comma, and the end of the array. -/
def jsonItemsChars : List Value → List Char
  | [] => [']']
  | value :: rest => ',' :: (jsonChars value ++ jsonItemsChars rest)

/-- The members behind the first one, each behind a comma, and the end of the object. -/
def jsonMembersChars : List (String × Value) → List Char
  | [] => ['\x7d']
  | (key, value) :: rest =>
    ',' :: (Json.stringChars key ++ ':' :: (jsonChars value ++ jsonMembersChars rest))

end

/-- The text that a value converts to. Strings and colors have no quotation marks, `null` is the
empty text, and arrays and objects are written as JSON. -/
def chars : Value → List Char
  | .null => []
  | .bool b => boolChars b
  | .number x => DecimalStyle.spelled.ofFloat x
  | .string s => s.toList
  | .color c => c.chars
  | value => jsonChars value

/-- The text that a value converts to. -/
def text (value : Value) : String :=
  String.ofList value.chars

end Symbology.Value
