import Symbology.Color.Basic
import Symbology.Json.Basic

set_option autoImplicit false

/-! # Values at run time

What an expression yields. All of JSON has a value; colors are the one kind that JSON does not
have. -/

namespace Symbology

/-- A value at run time. -/
inductive Value where
  | null
  | bool (value : Bool)
  | number (value : Float)
  | string (value : String)
  | color (value : Color)
  | array (items : List Value)
  /-- An object with its members in ascending order of their keys. -/
  | object (members : List (String × Value))

namespace Value

instance : Inhabited Value := ⟨.null⟩

/-! ## Equality -/

mutual

/-- Structural equality with numbers compared as numbers, in colors too: the two zeros are equal
and "not a number" equals nothing. -/
def beq : Value → Value → Bool
  | .null, .null => true
  | .bool a, .bool b => a == b
  | .number a, .number b => a == b
  | .string a, .string b => a == b
  | .color a, .color b => a == b
  | .array a, .array b => beqItems a b
  | .object a, .object b => beqMembers a b
  | _, _ => false

/-- Whether two lists have equal items at the same places. -/
def beqItems : List Value → List Value → Bool
  | [], [] => true
  | a :: as, b :: bs => beq a b && beqItems as bs
  | _, _ => false

/-- Two keyed lists have equal keys and equal values at equal places. -/
def beqMembers : List (String × Value) → List (String × Value) → Bool
  | [], [] => true
  | (k, a) :: as, (l, b) :: bs => k == l && (beq a b && beqMembers as bs)
  | _, _ => false

end

instance : BEq Value := ⟨beq⟩

/-! ## Looking into a value -/

/-- Whether the value is `null`. -/
def isNull : Value → Bool
  | .null => true
  | _ => false

/-- The number of a value that is one. -/
def number? : Value → Option Float
  | .number x => some x
  | _ => none

/-- The string of a value that is one. -/
def string? : Value → Option String
  | .string s => some s
  | _ => none

/-- The color of a value that is one. -/
def color? : Value → Option Color
  | .color c => some c
  | _ => none

/-! ## From and to JSON -/

mutual

/-- The value of a JSON value: numbers lose their kind, all else is kept. -/
def ofJson : Json → Value
  | .null => .null
  | .bool b => .bool b
  | .number n => .number n.toFloat
  | .string s => .string s
  | .array items => .array (ofJsonItems items)
  | .object members => .object (ofJsonMembers members)

/-- The items of an array as values. -/
def ofJsonItems : List Json → List Value
  | [] => []
  | json :: rest => ofJson json :: ofJsonItems rest

/-- The members of an object with their values. -/
def ofJsonMembers : List (String × Json) → List (String × Value)
  | [] => []
  | (key, json) :: rest => (key, ofJson json) :: ofJsonMembers rest

end

mutual

/-- The JSON value of a value: a color becomes its text, and a number that is not finite becomes
`null`. -/
def toJson : Value → Json
  | .null => .null
  | .bool b => .bool b
  | .number x => .ofFloat x
  | .string s => .string s
  | .color c => .string c.text
  | .array items => .array (toJsonItems items)
  | .object members => .object (toJsonMembers members)

/-- The items of an array as JSON. -/
def toJsonItems : List Value → List Json
  | [] => []
  | value :: rest => toJson value :: toJsonItems rest

/-- The members of an object as JSON. -/
def toJsonMembers : List (String × Value) → List (String × Json)
  | [] => []
  | (key, value) :: rest => (key, toJson value) :: toJsonMembers rest

end

end Value

end Symbology
