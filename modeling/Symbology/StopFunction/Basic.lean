import Symbology.PropertySpec.Basic

set_option autoImplicit false

/-! # Stop functions

Before there were expressions, a value that changes was written as a function with stops: pairs of
an input and an output. The input is the zoom level, a property of the feature, or both; with
both, the stops of one zoom level form a group, and each group is a function of the property. -/

namespace Symbology

namespace StopFunction

/-- What lies between two stops whose inputs are numbers. -/
inductive Curve where
  /-- The output of the lower stop. -/
  | interval
  /-- A blend of both outputs, at a rate that grows by `base`; without a base it is even. -/
  | exponential (base : Option Json.Number)

/-- A stop whose input is a number. -/
abbrev NumericStop := Json.Number × Json

/-- A function of a property. -/
inductive Body where
  /-- The outputs are ordered by the numbers of their stops. -/
  | ordered (curve : Curve) (stops : List NumericStop)
  /-- The output is that of the first stop whose input is the property, or else `fallback`. -/
  | categorical (stops : List (Json × Json)) (fallback : Json)

/-- The stops of one zoom level. -/
structure Group where
  /-- The zoom level. -/
  zoom : Json.Number
  /-- The function of the property at this zoom level. -/
  body : Body

end StopFunction

/-- A function with stops. -/
inductive StopFunction where
  /-- The value of a property of the feature, for a style property of some kind. -/
  | identity (name : String) (kind : PropertyKind)
  /-- A function of the zoom level. -/
  | overZoom (curve : StopFunction.Curve) (stops : List StopFunction.NumericStop)
  /-- A function of a property of the feature. -/
  | overProperty (name : String) (body : StopFunction.Body)
  /-- A function of a property of the feature for each of several zoom levels. -/
  | overBoth (name : String) (curve : StopFunction.Curve) (groups : List StopFunction.Group)

end Symbology
