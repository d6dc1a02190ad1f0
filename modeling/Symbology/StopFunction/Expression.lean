import Symbology.StopFunction.Basic

set_option autoImplicit false

/-! # Stop functions as expressions

Every stop function can be written as an expression: a function of the zoom level is a curve over
it, a function of a property looks at that property, and a function of both is a curve whose
outputs look at the property. -/

namespace Symbology.StopFunction

/-- An operator with its arguments, as an author would write it. -/
def call (operator : String) (args : List Json) : Json :=
  .array (.string operator :: args)

/-- The expression for the zoom level. -/
def zoomLevel : Json :=
  call "zoom" []

/-- The expression for a property of the feature. -/
def propertyOf (property : String) : Json :=
  call "get" [.string property]

/-- An output as an expression: arrays and objects are quoted, so that they stay values. -/
def quoted : Json → Json
  | .array items => call "literal" [.array items]
  | .object members => call "literal" [.object members]
  | scalar => scalar

/-- The interpolation of a curve: exponential if it has a base, and linear otherwise. -/
def interpolation : Option Json.Number → Json
  | none => call "linear" []
  | some base => call "exponential" [.number base]

/-- Labels and outputs in turn, as operators with stops or branches take them. -/
def alternate : List (Json × Json) → List Json
  | [] => []
  | (label, output) :: rest => label :: output :: alternate rest

/-- A list of stops without the label of the first. -/
def withoutFirstLabel (stops : List (Json × Json)) : List Json :=
  (alternate stops).drop 1

/-- A curve over `input` with stops whose outputs are expressions. -/
def Curve.expression (curve : Curve) (input : Json) (stops : List (Json.Number × Json)) : Json :=
  let stops := stops.map (fun stop => (Json.number stop.1, stop.2))
  match curve with
  | .interval => call "step" (input :: withoutFirstLabel stops)
  | .exponential base => call "interpolate" (interpolation base :: input :: alternate stops)

/-- Stops without those whose input stands before, or among the inputs `seen`. -/
def firstOfEach (seen : List Json) : List (Json × Json) → List (Json × Json)
  | [] => []
  | (input, output) :: rest =>
    if seen.contains input then firstOfEach seen rest
    else (input, output) :: firstOfEach (input :: seen) rest

/-- Stops with their outputs quoted, so that none of them is taken for an expression. -/
def quotedOutputs {α : Type} (stops : List (α × Json)) : List (α × Json) :=
  stops.map (fun stop => (stop.1, quoted stop.2))

/-- The expression for a function of a property. Where inputs are repeated in a list of branches the
first output is kept. -/
def Body.expression (property : String) : Body → Json
  | .ordered curve stops =>
    -- no other type is converted: a property that is no number is an error
    curve.expression (call "number" [propertyOf property]) (quotedOutputs stops)
  | .categorical stops fallback =>
    call "match" (propertyOf property ::
      (alternate (quotedOutputs (firstOfEach [] stops)) ++ [quoted fallback]))

/-- A property of the feature, as a value of the kind of the style property. -/
def identityExpression (property : String) : PropertyKind → Json
  | .color => call "to-color" [propertyOf property]
  | .number => call "number" [propertyOf property]
  | .string | .enum => call "string" [propertyOf property]
  | .boolean => call "boolean" [propertyOf property]
  | .array => propertyOf property

/-- The expression that a stop function stands for. -/
def expression : StopFunction → Json
  | .identity name kind => identityExpression name kind
  | .overZoom curve stops => curve.expression zoomLevel (quotedOutputs stops)
  | .overProperty name body => body.expression name
  | .overBoth name curve groups =>
    curve.expression zoomLevel
      (groups.map (fun group => (group.zoom, group.body.expression name)))

end Symbology.StopFunction
