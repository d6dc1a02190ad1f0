import Symbology.Value.Basic

set_option autoImplicit false

/-! # Types of values

A type says what kind of value an expression yields. The type of an array may fix the type of the
items and their number. `ValueType.accepts` compares two types; `Value.type` is the most exact
type of a value. -/

namespace Symbology

/-- The type of a value. -/
inductive ValueType where
  | null
  | number
  | string
  | boolean
  | color
  | object
  /-- Any value. -/
  | value
  /-- Arrays of items of one type, with a fixed number of them if there is a length. -/
  | array (item : ValueType) (length : Option Nat)
deriving DecidableEq, Repr

namespace ValueType

/-- Every value of the type `actual` may stand where a value of the type `expected` is wanted. -/
def accepts : (expected actual : ValueType) → Bool
  | .value, _ => true
  | .array item length, .array actualItem actualLength =>
    item.accepts actualItem && (length.isNone || length == actualLength)
  | expected, actual => expected == actual

/-- The text of a type in messages, with the length of an array if it is known. -/
def text : ValueType → String
  | .null => "null"
  | .number => "number"
  | .string => "string"
  | .boolean => "boolean"
  | .color => "color"
  | .object => "object"
  | .value => "value"
  | .array item (some n) => "array<" ++ item.text ++ ", " ++ toString n ++ ">"
  | .array .value none => "array"
  | .array item none => "array<" ++ item.text ++ ">"

/-- The type that all types of a list are, or any value if they differ or there are none. -/
def common : List ValueType → ValueType
  | [] => .value
  | first :: rest => if rest.all (· == first) then first else .value

end ValueType

namespace Value

mutual

/-- The most exact type of a value. That of an array has its length and what its items share. -/
def type : Value → ValueType
  | .null => .null
  | .bool _ => .boolean
  | .number _ => .number
  | .string _ => .string
  | .color _ => .color
  | .object _ => .object
  | .array items => .array (ValueType.common (types items)) (some items.length)

/-- The types of the items of an array, one by one. -/
def types : List Value → List ValueType
  | [] => []
  | item :: rest => type item :: types rest

end

end Value

end Symbology
