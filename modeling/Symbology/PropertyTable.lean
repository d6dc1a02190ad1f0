import Symbology.Declaration
import Symbology.Json.Reader
import Symbology.PropertySpec.Printer
import Symbology.PropertySpec.Reader

set_option autoImplicit false

/-! # Tables of style properties

A table holds the specifications of style properties by name. It can be loaded from text and
written back, and it declares values for properties by their names. -/

namespace Symbology

/-- Specifications of style properties, in ascending order of the names. -/
structure PropertyTable where
  properties : List (String × PropertySpec) := []

namespace PropertyTable

/-- The table without any properties. -/
def empty : PropertyTable := {}

/-- The table with a specification under a name. One that had the name before is replaced. -/
def insert (table : PropertyTable) (name : String) (spec : PropertySpec) : PropertyTable :=
  ⟨Members.insert name spec table.properties⟩

/-- The specification under a name. -/
def get? (table : PropertyTable) (name : String) : Option PropertySpec :=
  table.properties.lookup name

/-- The names of the properties, in ascending order. -/
def names (table : PropertyTable) : List String :=
  table.properties.map (·.1)

/-- The number of properties. -/
def size (table : PropertyTable) : Nat :=
  table.properties.length

/-- Whether there are no properties. -/
def isEmpty (table : PropertyTable) : Bool :=
  table.properties.isEmpty

/-! ## Text -/

/-- The specifications of the members of an object, in the order they are written. -/
def specs? : List (Option String × Json.Document) → Option (List (String × PropertySpec))
  | [] => some []
  | (name, document) :: rest =>
    match name, PropertySpec.ofDocument? document, specs? rest with
    | some name, some spec, some others => some ((name, spec) :: others)
    | _, _, _ => none

/-- The table that an object spells; of two members with one name the last stays. -/
def ofDocument? : Json.Document → Option PropertyTable
  | .object members => (specs? members).map (fun pairs => ⟨Members.ofList pairs⟩)
  | _ => none

/-- The table that a text of JSON spells: an object with a specification under each name. -/
def load? (text : String) : Option PropertyTable :=
  (Json.Document.read? text).bind ofDocument?

/-- The table as an object, with its properties ordered by name. -/
def toJson (table : PropertyTable) : Json :=
  .object (table.properties.map (fun property => (property.1, property.2.toJson)))

/-- The text of a table, from which it is loaded again. -/
def text (table : PropertyTable) : String :=
  table.toJson.compact

/-! ## Declarations -/

/-- Why a table refuses a declaration. -/
inductive Error where
  | unknownProperty (name : String)
  /-- The value is not one for the property. -/
  | declaration (name : String) (value : Json) (error : PropertyValue.ReadError)

/-- What the author is told. A value that is refused is shown by its canonical text, and the reason
is left to the error inside. -/
def Error.message : Error → String
  | .unknownProperty name => "unknown style property \"" ++ name ++ "\""
  | .declaration name value _ => name ++ ": invalid value " ++ value.canonical

/-- The declaration of a value for the property with a name. -/
def declare (table : PropertyTable) (name : String) (json : Json) : Except Error Declaration :=
  match table.get? name with
  | none => .error (.unknownProperty name)
  | some spec =>
    match Declaration.read spec json with
    | .ok declaration => .ok declaration
    | .error e => .error (.declaration name json e)

end PropertyTable

end Symbology
