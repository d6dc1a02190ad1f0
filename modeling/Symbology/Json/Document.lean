import Symbology.Json.Basic
import Symbology.Number.Numeral

set_option autoImplicit false

/-! # JSON documents as they are written

A `Document` keeps what a `Json` value forgets: the members of an object in the order they are
written, with repeated keys. It also holds scalars that have a correct spelling but no value: a
number beyond the floating-point range and a string with an unpaired half of a pair. Reading up
the value (`Document.json?`) fails on these, but a document may hold them where nothing reads
them. -/

namespace Symbology

/-- A JSON text cut into its parts. -/
inductive Json.Document where
  | null
  | bool (value : Bool)
  /-- A number, absent when it is out of range. -/
  | number (value : Option Json.Number)
  /-- A string, absent when it is not well formed. -/
  | string (value : Option String)
  | array (items : List Json.Document)
  /-- An object with its members as they are written. -/
  | object (members : List (Option String × Json.Document))

namespace Json

/-- The number that a numeral stands for. A numeral without point and exponent is an integer when
it fits in 64 bits, and a negative zero is not an integer. -/
def Number.ofNumeral? (n : Numeral) : Option Number :=
  let whole := Nat.ofDigitChars 10 n.whole 0
  if n.isWhole && !n.negative && decide (whole < 0x10000000000000000) then some (.integer whole)
  else if n.isWhole && n.negative && decide (0 < whole ∧ whole ≤ 0x8000000000000000) then
    some (.integer (-whole))
  else if h : n.toFloat.isFinite = true then some (.float n.toFloat h)
  else none

namespace Document

mutual

/-- The value of a document: keys sorted, and of two members with one key the last. -/
def json? : Document → Option Json
  | .null => some .null
  | .bool b => some (.bool b)
  | .number n => n.map .number
  | .string s => s.map .string
  | .array items => (itemsJson? items).map .array
  | .object members => (membersJson? members).map (fun pairs => .object (Members.ofList pairs))

/-- The values of all items, if each of them has one. -/
def itemsJson? : List Document → Option (List Json)
  | [] => some []
  | item :: rest =>
    match json? item, itemsJson? rest with
    | some json, some jsons => some (json :: jsons)
    | _, _ => none

/-- The keys and values of all members, in the order they are written. -/
def membersJson? : List (Option String × Document) → Option (List (String × Json))
  | [] => some []
  | (key, item) :: rest =>
    match key, json? item, membersJson? rest with
    | some key, some json, some pairs => some ((key, json) :: pairs)
    | _, _, _ => none

end

end Document

end Json

end Symbology
