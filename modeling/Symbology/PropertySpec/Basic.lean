import Symbology.Value.Type

set_option autoImplicit false

/-! # Specifications of style properties

A style property has a kind of value, and may have a lower bound, a default and a rule for what
happens between two stops. Two flags say whether its value may depend on the zoom level and on the
feature that is drawn. -/

namespace Symbology

/-- The kind of value that a property has. -/
inductive PropertyKind where
  | number
  | string
  | boolean
  | color
  /-- One of a fixed set of strings. -/
  | enum
  | array
deriving DecidableEq, Repr

namespace PropertyKind

/-- The word for a kind of value in a specification and in messages. -/
def label : PropertyKind → String
  | .number => "number"
  | .string => "string"
  | .boolean => "boolean"
  | .color => "color"
  | .enum => "enum"
  | .array => "array"

/-- The kinds of values, in the order in which their words are looked up. -/
def all : List PropertyKind :=
  [.number, .string, .boolean, .color, .enum, .array]

/-- The kind of value that a word stands for. -/
def ofLabel? (label : String) : Option PropertyKind :=
  all.find? (·.label == label)

/-- The type of values of a kind. The words of an enumeration are strings. -/
def type : PropertyKind → ValueType
  | .number => .number
  | .string | .enum => .string
  | .boolean => .boolean
  | .color => .color
  | .array => .array .value none

end PropertyKind

/-- What happens to a value between two stops. -/
inductive Blending where
  /-- It changes smoothly. -/
  | interpolated
  /-- It jumps at each stop. -/
  | piecewiseConstant
deriving DecidableEq, Repr

namespace Blending

/-- The word for what happens between two stops. -/
def label : Blending → String
  | .interpolated => "interpolated"
  | .piecewiseConstant => "piecewise-constant"

/-- What happens between two stops, by the word for it. -/
def ofLabel? (label : String) : Option Blending :=
  [interpolated, piecewiseConstant].find? (·.label == label)

end Blending

/-- The specification of a style property. -/
structure PropertySpec where
  kind : PropertyKind
  minimum : Option Float := none
  /-- The value of a property that is not set. -/
  default : Option Json := none
  /-- What happens between two stops, when it is not left to the kind of value. -/
  blending : Option Blending := none
  /-- Whether the value may depend on the zoom level. -/
  zoomDependent : Bool := true
  /-- Whether the value may depend on the feature. -/
  featureDependent : Bool := true
  /-- The kind of the items of an array. -/
  item : Option PropertyKind := none
  /-- The number of items of an array. -/
  length : Option Nat := none

namespace PropertySpec

/-- The specification of a property that is an array, with all else left open. -/
def arrayOf (item : PropertyKind) (length : Option Nat) : PropertySpec :=
  { kind := .array, item := some item, length }

/-- The type that the value of the property has to have. -/
def type (spec : PropertySpec) : ValueType :=
  match spec.kind with
  | .array => .array ((spec.item.map PropertyKind.type).getD .value) spec.length
  | kind => kind.type

/-- Whether the value changes smoothly between two stops: if nothing else is said, numbers, colors
and arrays of numbers do. -/
def isInterpolated (spec : PropertySpec) : Bool :=
  match spec.blending with
  | some blending => blending == .interpolated
  | none =>
    match spec.kind with
    | .number | .color => true
    | .array => spec.item == some .number
    | _ => false

/-- The default of the property. A default that is `null` counts as none. -/
def default? (spec : PropertySpec) : Option Json :=
  spec.default.filter (!·.isNull)

end PropertySpec

end Symbology
