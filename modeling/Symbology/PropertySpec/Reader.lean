import Symbology.Json.Document
import Symbology.PropertySpec.Basic

set_option autoImplicit false

/-! # Reading specifications of style properties

A specification is an object with eight known keys, or an array of up to eight parts in the order
of the keys. Only the kind is required. A known key may not stand twice; other keys are ignored,
whatever they hold. -/

namespace Symbology

namespace Json

/-! ## Values as documents -/

mutual

/-- A value as a document without faults, whose strings are valid and whose numbers are in range. -/
def toDocument : Json → Document
  | .null => .null
  | .bool b => .bool b
  | .number n => .number (some n)
  | .string s => .string (some s)
  | .array items => .array (itemsToDocuments items)
  | .object members => .object (membersToDocuments members)

/-- The items of an array as documents. -/
def itemsToDocuments : List Json → List Document
  | [] => []
  | json :: rest => toDocument json :: itemsToDocuments rest

/-- The members of an object as documents behind their keys. -/
def membersToDocuments : List (String × Json) → List (Option String × Document)
  | [] => []
  | (key, json) :: rest => (some key, toDocument json) :: membersToDocuments rest

end

/-! ## Scalars -/

namespace Document

/-- The truth value of a document that is one. -/
def bool? : Document → Option Bool
  | .bool b => some b
  | _ => none

/-- The number of a document that is one, in double precision. -/
def float? : Document → Option Float
  | .number (some n) => some n.toFloat
  | _ => none

/-- The number of a document, if it is an integer and not negative. -/
def nat? : Document → Option Nat
  | .number (some (.integer (.ofNat n))) => some n
  | _ => none

/-- The name in a document: a string, or an object with this name as its only key and `null`
behind it. -/
def name? : Document → Option String
  | .string name => name
  | .object [(key, .null)] => key
  | _ => none

/-- The members of an object, if all keys are well formed. -/
def members? (members : List (Option String × Document)) : Option (List (String × Document)) :=
  members.mapM (fun (key, document) => key.map (·, document))

end Document

end Json

namespace PropertySpec

open Json (Document)

/-! ## Parts -/

/-- The keys that are known, in the order in which an array gives the parts. -/
def keys : List String :=
  ["type", "minimum", "default", "function", "zoom-function", "property-function", "value",
    "length"]

/-- A part that may be left out. It is left out if it is not there or `null`, and has to be read
otherwise. -/
def optional {α : Type} (read : Document → Option α) : Option Document → Option (Option α)
  | none | some .null => some none
  | some document => (read document).map some

/-- A part that is true unless it is there. It may not be `null`. -/
def flag : Option Document → Option Bool
  | none => some true
  | some document => document.bool?

/-- The kind of value that a document names. -/
def kind? (document : Document) : Option PropertyKind :=
  document.name?.bind PropertyKind.ofLabel?

/-- What happens between two stops, as a document names it. -/
def blending? (document : Document) : Option Blending :=
  document.name?.bind Blending.ofLabel?

/-- The specification with the given parts. Only its type has to be there, and parts that are not
known are passed over. -/
def ofParts? (parts : List (String × Document)) : Option PropertySpec := do
  let kind ← (parts.lookup "type").bind kind?
  let minimum ← optional Document.float? (parts.lookup "minimum")
  let default ← optional Document.json? (parts.lookup "default")
  let blending ← optional blending? (parts.lookup "function")
  let zoomDependent ← flag (parts.lookup "zoom-function")
  let featureDependent ← flag (parts.lookup "property-function")
  let item ← optional kind? (parts.lookup "value")
  let length ← optional Document.nat? (parts.lookup "length")
  return { kind, minimum, default, blending, zoomDependent, featureDependent, item, length }

/-- Whether no known key is given more than once. -/
def keysUnique (parts : List (String × Document)) : Bool :=
  keys.all (fun key => (parts.filter (·.1 == key)).length ≤ 1)

/-! ## The readers -/

/-- The specification that a document spells, by its parts under their keys or by an array of the
parts in order. -/
def ofDocument? : Document → Option PropertySpec
  | .object members =>
    (Document.members? members).bind (fun parts =>
      if keysUnique parts then ofParts? parts else none)
  -- an array may end early, and then the parts behind its end are left out
  | .array items => if items.length ≤ keys.length then ofParts? (keys.zip items) else none
  | _ => none

/-- The specification that a value spells. -/
def ofJson? (json : Json) : Option PropertySpec :=
  ofDocument? json.toDocument

end PropertySpec

end Symbology
