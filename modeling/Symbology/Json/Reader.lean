import Symbology.Json.Document
import Symbology.Json.Token

set_option autoImplicit false

/-! # Reading JSON

The tokens of a text are taken one after another by a `Builder`. It holds the arrays and objects
that are open, from the inside out, and what may come next; `Builder.accept` takes it past one
token, or refuses the token. A text is a document when all its tokens are accepted and leave one
complete value that nothing encloses. -/

namespace Symbology.Json

/-- An array or object that is open, with what was read of it, the newest first. -/
inductive Builder.Frame where
  /-- An open array with the items before the one that is being read. -/
  | array (items : List Document)
  /-- An open object with the members before the one that is being read, and its key. -/
  | object (members : List (Option String × Document)) (key : Option String)

/-- What may come next, inside of the open arrays and objects `frames`. -/
inductive Builder where
  /-- A value. -/
  | value (frames : List Builder.Frame)
  /-- A value or the end of an array that was just opened. -/
  | firstItem (frames : List Builder.Frame)
  /-- A key or the end of an object that was just opened. -/
  | firstKey (frames : List Builder.Frame)
  /-- A key, behind a comma. -/
  | key (frames : List Builder.Frame) (members : List (Option String × Document))
  /-- The colon behind a key. -/
  | colon (frames : List Builder.Frame) (members : List (Option String × Document))
      (key : Option String)
  /-- A comma or a closing bracket, behind a complete value. -/
  | complete (frames : List Builder.Frame) (document : Document)

namespace Builder

/-- The builder behind the token that begins a value. Scalars are complete at once, while a bracket
opens a frame. -/
def acceptValue (frames : List Frame) : Token → Option Builder
  | .null => some (.complete frames .null)
  | .bool b => some (.complete frames (.bool b))
  | .number n => some (.complete frames (.number (Number.ofNumeral? n)))
  | .string s => some (.complete frames (.string s))
  | .openArray => some (.firstItem frames)
  | .openObject => some (.firstKey frames)
  | _ => none

/-- Takes a comma or a closing bracket behind the value `document` of the innermost frame. -/
def acceptAfter (document : Document) : List Frame → Token → Option Builder
  | .array items :: frames, .comma => some (.value (.array (document :: items) :: frames))
  | .array items :: frames, .closeArray =>
    some (.complete frames (.array (document :: items).reverse))
  | .object members name :: frames, .comma => some (.key frames ((name, document) :: members))
  | .object members name :: frames, .closeObject =>
    some (.complete frames (.object ((name, document) :: members).reverse))
  | _, _ => none

/-- The builder behind one more token, if the token may stand there. -/
def accept : Builder → Token → Option Builder
  | .value frames, token => acceptValue frames token
  | .firstItem frames, .closeArray => some (.complete frames (.array []))
  | .firstItem frames, token => acceptValue (.array [] :: frames) token
  | .firstKey frames, .closeObject => some (.complete frames (.object []))
  | .firstKey frames, .string name => some (.colon frames [] name)
  | .key frames members, .string name => some (.colon frames members name)
  | .colon frames members name, .colon => some (.value (.object members name :: frames))
  | .complete frames document, token => acceptAfter document frames token
  | _, _ => none

/-- The document, when it is complete and nothing is open. -/
def document? : Builder → Option Document
  | .complete [] document => some document
  | _ => none

end Builder

/-- The document that is spelled by tokens, all of which have to belong to it. -/
def Document.ofTokens? (tokens : List Token) : Option Document :=
  (tokens.foldlM Builder.accept (.value [])).bind Builder.document?

/-- The document that is spelled by the whole of a text. -/
def Document.read? (text : String) : Option Document :=
  (tokens? text.toList).bind Document.ofTokens?

/-- The value that is spelled by the whole of a text. Unlike a document, it has no faulty strings
and no numbers out of range. -/
def read? (text : String) : Option Json :=
  (Document.read? text).bind Document.json?

end Symbology.Json
