import Symbology.Json.Printer
import Symbology.PropertySpec.Basic

set_option autoImplicit false

/-! # Text of specifications

A specification is written as an object with its keys in a fixed order. Parts that are absent are
left out; the flags are always written. -/

namespace Symbology.PropertySpec

/-- The member for a part of the specification. A part that is not there has no member. -/
def optionalField {α : Type} (key : String) (toJson : α → Json) (part : Option α) :
    List (String × Json) :=
  part.toList.map (fun value => (key, toJson value))

/-- The members of the object, in the order in which they are written. -/
def fields (spec : PropertySpec) : List (String × Json) :=
  ("type", .string spec.kind.label) ::
    (optionalField "minimum" Json.ofFloat spec.minimum ++
      optionalField "default" id spec.default ++
      optionalField "function" (fun blending => .string blending.label) spec.blending ++
      ("zoom-function", .bool spec.zoomDependent) ::
      ("property-function", .bool spec.featureDependent) ::
      optionalField "value" (fun kind => .string kind.label) spec.item ++
      optionalField "length" (fun n => .number (.integer n)) spec.length)

/-- The specification as an object, as it is stored. -/
def toJson (spec : PropertySpec) : Json :=
  .object spec.fields

end Symbology.PropertySpec
