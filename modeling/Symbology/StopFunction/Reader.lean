import Symbology.Json.Printer
import Symbology.StopFunction.Basic

set_option autoImplicit false

/-! # Reading stop functions

A stop function is an object with the members `type`, `property`, `stops`, `base` and `default`.
They are looked at in a fixed order, so of two faults the one that is met first is told. -/

namespace Symbology.StopFunction

/-! ## Errors -/

/-- The part of a function that is to blame. -/
inductive Part where
  | whole
  | member (key : String)
  | stop (index : Nat)
  | input (index : Nat)
deriving DecidableEq, Repr

/-- What is wrong with a function. -/
inductive Fault where
  | notObject
  | unknownType (type : Json)
  | propertyKind
  /-- The outputs of such a property cannot be blended. -/
  | notBlended (kind : PropertyKind)
  | identityProperty
  | compositeProperty
  | categoricalProperty
  | noStop
  | stopsKind
  | stopsMissing
  | notPair
  | baseKind
  | inputKind (input : Json)
  /-- The input of a stop lacks a zoom level or a value. -/
  | compositeInput

/-- Why a function is refused. -/
structure ReadError where
  part : Part
  fault : Fault

/-- The way from the function down to a part. -/
def Part.text : Part → String
  | .whole => "$"
  | .member key => "$." ++ key
  | .stop index => "$.stops[" ++ toString index ++ "]"
  | .input index => "$.stops[" ++ toString index ++ "][0]"

/-- What is wrong, in words. -/
def Fault.text : Fault → String
  | .notObject => "Expected a function object."
  | .unknownType type => "Unknown function type " ++ type.compact ++ "."
  | .propertyKind => "Function property must be a string."
  | .notBlended kind =>
    "Exponential functions are not supported for " ++ kind.label ++ " properties."
  | .identityProperty => "Identity functions require a property."
  | .compositeProperty => "Zoom-and-property functions require a property."
  | .categoricalProperty => "Categorical functions require a property."
  | .noStop => "Expected at least one stop."
  | .stopsKind => "Stops must be an array."
  | .stopsMissing => "Function is missing stops."
  | .notPair => "Each stop must be an [input, output] pair."
  | .baseKind => "Function base must be a number."
  | .inputKind input => "Stop inputs must be numbers, but found " ++ input.compact ++ "."
  | .compositeInput => "Zoom-and-property stop inputs must have \"zoom\" and \"value\"."

/-- The message says where the fault is and what is wrong. -/
def ReadError.message (e : ReadError) : String :=
  e.part.text ++ ": " ++ e.fault.text

/-- What the reader answers: a part of the function, or what is wrong with it. -/
abbrev Read (α : Type) := Except ReadError α

/-- The answer that a part has a fault. -/
def Read.fail {α : Type} (part : Part) (fault : Fault) : Read α :=
  .error ⟨part, fault⟩

/-! ## Members -/

/-- The types of functions. -/
inductive FunctionType where
  | identity
  | exponential
  | interval
  | categorical
deriving DecidableEq, Repr

/-- The type of function that a value names. -/
def FunctionType.ofJson? : Json → Option FunctionType
  | .string "identity" => some .identity
  | .string "exponential" => some .exponential
  | .string "interval" => some .interval
  | .string "categorical" => some .categorical
  | _ => none

/-- The type of a function; without one, outputs are blended where the property allows it. -/
def functionType (spec : PropertySpec) : Option Json → Read FunctionType
  | none => .ok (if spec.isInterpolated then .exponential else .interval)
  | some json =>
    match FunctionType.ofJson? json with
    | some type => .ok type
    | none => .fail (.member "type") (.unknownType json)

/-- The name of the property that the function depends on, if it depends on one. -/
def propertyName : Option Json → Read (Option String)
  | none => .ok none
  | some (.string name) => .ok (some name)
  | some _ => .fail (.member "property") .propertyKind

/-- The input and the output of each stop; the first of them is the stop at `index`. -/
def pairs (index : Nat) : List Json → Read (List (Json × Json))
  | [] => .ok []
  | .array [input, output] :: rest => (pairs (index + 1) rest).map ((input, output) :: ·)
  | _ :: _ => .fail (.stop index) .notPair

/-- The inputs and outputs of a list of stops, which is neither missing nor empty. -/
def stops : Option Json → Read (List (Json × Json))
  | none => .fail (.member "stops") .stopsMissing
  | some (.array []) => .fail (.member "stops") .noStop
  | some (.array items) => pairs 0 items
  | some _ => .fail (.member "stops") .stopsKind

/-- The base of a function; a base of one is the same as none. -/
def base : Option Json → Read (Option Json.Number)
  | none => .ok none
  | some (.number n) => .ok (if n.toFloat == 1 then none else some n)
  | some _ => .fail (.member "base") .baseKind

/-! ## Stops -/

/-- The number that the input of the stop at `index` has to be. -/
def numericInput (index : Nat) : Json → Read Json.Number
  | .number n => .ok n
  | input => .fail (.input index) (.inputKind input)

/-- Stops whose inputs are numbers; the first of them is the stop at `index`. -/
def numericStops (index : Nat) : List (Json × Json) → Read (List NumericStop)
  | [] => .ok []
  | (input, output) :: rest => do
    let n ← numericInput index input
    let others ← numericStops (index + 1) rest
    return (n, output) :: others

/-- The settings that a function and its groups share. -/
structure Settings where
  type : FunctionType
  /-- The base, if it is not one. -/
  base : Option Json.Number
  /-- The output where no stop has the value of the property. -/
  fallback : Json

namespace Settings

/-- What happens between two stops. Types that do not blend hold the output of the lower one. -/
def curve (settings : Settings) : Curve :=
  if settings.type = .exponential then .exponential settings.base else .interval

/-- What lies between two zoom levels of a function with groups. -/
def outerCurve (settings : Settings) (spec : PropertySpec) : Curve :=
  if spec.isInterpolated ∧ settings.type ≠ .interval then .exponential settings.base
  else .interval

/-- The function of a property with the given stops. The position in an error counts from the first
of these stops. -/
def body (settings : Settings) (stops : List (Json × Json)) : Read Body :=
  if settings.type = .categorical then .ok (.categorical stops settings.fallback)
  else (numericStops 0 stops).map (.ordered settings.curve)

end Settings

/-! ## Groups -/

/-- A stop of a function with groups: its zoom level, its value of the property, and its output. -/
abbrev CompositeStop := Json.Number × Json × Json

/-- Stops whose inputs hold a zoom level and a value; the first of them is the stop at `index`. -/
def compositeStops (index : Nat) : List (Json × Json) → Read (List CompositeStop)
  | [] => .ok []
  | (input, output) :: rest =>
    match input.get? "zoom", input.get? "value" with
    | some zoom, some value => do
      let n ← numericInput index zoom
      let others ← compositeStops (index + 1) rest
      return (n, value, output) :: others
    | _, _ => .fail (.input index) .compositeInput

/-- The longest runs of stops with the same zoom level, each with the zoom level of its first
stop. -/
def runs : List CompositeStop → List (Json.Number × List (Json × Json))
  | [] => []
  | (zoom, stop) :: rest =>
    match runs rest with
    | (next, stops) :: others =>
      if zoom == next then (zoom, stop :: stops) :: others
      else (zoom, [stop]) :: (next, stops) :: others
    | [] => [(zoom, [stop])]

/-- The groups of a function, each read as a function of the property. -/
def groups (settings : Settings) : List (Json.Number × List (Json × Json)) → Read (List Group)
  | [] => .ok []
  | (zoom, stops) :: rest => do
    let body ← settings.body stops
    let others ← groups settings rest
    return ⟨zoom, body⟩ :: others

/-! ## The reader -/

/-- The inputs of the stops hold a zoom level and a value of the property, going by the first. -/
def isComposite : List (Json × Json) → Bool
  | (.object _, _) :: _ => true
  | _ => false

/-- The function with stops that are read already. -/
def ofStops (spec : PropertySpec) (settings : Settings) (stops : List (Json × Json)) :
    Option String → Read StopFunction
  | some name =>
    if isComposite stops then do
      let stops ← compositeStops 0 stops
      let groups ← groups settings (runs stops)
      return .overBoth name (settings.outerCurve spec) groups
    else (settings.body stops).map (.overProperty name)
  | none =>
    if isComposite stops then .fail (.member "property") .compositeProperty
    else if settings.type = .categorical then .fail (.member "type") .categoricalProperty
    else (numericStops 0 stops).map (.overZoom settings.curve)

/-- The function with the given members. An identity takes no stops; for all other types the default
of the property steps in where the function has none. -/
def ofMembers (spec : PropertySpec) (members : List (String × Json)) : Read StopFunction := do
  let type ← functionType spec (members.lookup "type")
  let name ← propertyName (members.lookup "property")
  if type = .exponential ∧ ¬ spec.isInterpolated then
    .fail (.member "type") (.notBlended spec.kind)
  else if type = .identity then
    match name with
    | some name => return .identity name spec.kind
    | none => .fail (.member "property") .identityProperty
  else do
    let stops ← stops (members.lookup "stops")
    let base ← base (members.lookup "base")
    let fallback := ((members.lookup "default").or spec.default).getD .null
    ofStops spec ⟨type, base, fallback⟩ stops name

/-- The function that a value spells, for a property. -/
def read (json : Json) (spec : PropertySpec) : Read StopFunction :=
  match json with
  | .object members => ofMembers spec members
  | _ => .fail .whole .notObject

end Symbology.StopFunction
