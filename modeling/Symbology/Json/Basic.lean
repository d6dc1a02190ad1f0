import Symbology.Members
import Symbology.Number.Rounding

set_option autoImplicit false

/-! # JSON values

A number keeps the kind it was written with: whole numbers without a point or an exponent are
integers, all others are floating-point numbers, which are finite. The members of an object are a
keyed list in ascending order. -/

namespace Symbology

/-- A number of a JSON value. -/
inductive Json.Number where
  /-- A number written without a point and without an exponent. -/
  | integer (value : Int)
  /-- Any other number. -/
  | float (value : Float) (finite : value.isFinite = true)

/-- A JSON value. -/
inductive Json where
  | null
  | bool (value : Bool)
  | number (value : Json.Number)
  | string (value : String)
  | array (items : List Json)
  /-- An object with its members in ascending order of their keys. -/
  | object (members : List (String × Json))

namespace Json

instance : Inhabited Json := ⟨.null⟩

/-! ## Numbers -/

namespace Number

/-- The number in double precision. An integer is rounded to the nearest one. -/
def toFloat : Number → Float
  | .integer n => Symbology.Number.ofInt n
  | .float x _ => x

/-- Integers are equal by value and floating-point numbers by comparison; an integer never equals a
floating-point number. -/
def beq : Number → Number → Bool
  | .integer m, .integer n => m == n
  | .float x _, .float y _ => x == y
  | _, _ => false

instance : BEq Number := ⟨beq⟩

end Number

/-- A floating-point number; one that is not finite has no spelling and becomes `null`. -/
def ofFloat (x : Float) : Json :=
  if h : x.isFinite = true then .number (.float x h) else .null

/-! ## Equality -/

mutual

/-- Structural equality, with numbers compared by `Number.beq`. -/
def beq : Json → Json → Bool
  | .null, .null => true
  | .bool a, .bool b => a == b
  | .number a, .number b => a == b
  | .string a, .string b => a == b
  | .array a, .array b => beqItems a b
  | .object a, .object b => beqMembers a b
  | _, _ => false

/-- Whether two lists have equal items at the same places. -/
def beqItems : List Json → List Json → Bool
  | [], [] => true
  | a :: as, b :: bs => beq a b && beqItems as bs
  | _, _ => false

/-- Two keyed lists have equal keys and equal values at equal places. -/
def beqMembers : List (String × Json) → List (String × Json) → Bool
  | [], [] => true
  | (k, a) :: as, (l, b) :: bs => k == l && (beq a b && beqMembers as bs)
  | _, _ => false

end

instance : BEq Json := ⟨beq⟩

/-! ## Looking into a value -/

/-- Whether the value is `null`. -/
def isNull : Json → Bool
  | .null => true
  | _ => false

/-- The number of a value that is one, in double precision. -/
def number? : Json → Option Float
  | .number n => some n.toFloat
  | _ => none

/-- The number of a value that is an integer and not negative. -/
def nat? : Json → Option Nat
  | .number (.integer (.ofNat n)) => some n
  | _ => none

/-- The string of a value that is one. -/
def string? : Json → Option String
  | .string s => some s
  | _ => none

/-- The items of a value that is an array. -/
def array? : Json → Option (List Json)
  | .array items => some items
  | _ => none

/-- The members of a value that is an object. -/
def object? : Json → Option (List (String × Json))
  | .object members => some members
  | _ => none

/-- The member with the key `key` of a value that is an object. -/
def get? (json : Json) (key : String) : Option Json :=
  json.object?.bind (List.lookup key)

/-- The word for the kind of a value in messages. -/
def kind : Json → String
  | .null => "null"
  | .bool _ => "boolean"
  | .number _ => "number"
  | .string _ => "string"
  | .array _ => "array"
  | .object _ => "object"

/-! ## Sorted members -/

mutual

/-- The value with the members of every object in it in ascending order, and of two members with
one key the last. -/
def sorted : Json → Json
  | .array items => .array (sortedItems items)
  | .object members => .object (Members.ofList (sortedMembers members))
  | json => json

/-- Items with their members in order, at every depth. -/
def sortedItems : List Json → List Json
  | [] => []
  | json :: rest => sorted json :: sortedItems rest

/-- Members with the members of their values in order. Their own order is left as it is. -/
def sortedMembers : List (String × Json) → List (String × Json)
  | [] => []
  | (key, json) :: rest => (key, sorted json) :: sortedMembers rest

end

end Json

end Symbology
