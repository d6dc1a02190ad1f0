import Symbology.PropertyExpression
import Symbology.StopFunction.Expression
import Symbology.StopFunction.Reader

set_option autoImplicit false

/-! # Values of style properties

An author writes the value of a style property as a color, another constant, an expression or a
stop function. All of them are read as a constant or an expression. -/

namespace Symbology

/-- The value of a style property. -/
inductive PropertyValue where
  | constant (value : Value)
  | expression (compiled : PropertyExpression)

namespace PropertyValue

/-- The value of the property for a feature and a zoom level. A constant needs neither. -/
def evaluate (value : PropertyValue) (context : Context) : Outcome :=
  match value with
  | .constant value => .ok value
  | .expression compiled => compiled.evaluate context

/-- Whether the value is the same for all features. -/
def isFeatureConstant : PropertyValue → Bool
  | .constant _ => true
  | .expression compiled => compiled.expr.isFeatureConstant

/-- Whether the value is the same at all zoom levels. -/
def isZoomConstant : PropertyValue → Bool
  | .constant _ => true
  | .expression compiled => compiled.expr.isZoomConstant

/-- How the value changes with the zoom level, if it does. -/
def zoomCurve? : PropertyValue → Option ZoomCurve
  | .constant _ => none
  | .expression compiled => compiled.expr.zoomCurve?

end PropertyValue

/-! ## How values are written -/

/-- How the value of a property is written. -/
inductive Shape where
  /-- The text of a color, for a color property. -/
  | color
  /-- Another constant. -/
  | constant
  /-- An object with an expression. -/
  | expression
  /-- A stop function: any other object. -/
  | stopFunction
deriving DecidableEq, Repr

/-- The member of an object that holds an expression. -/
def Json.expression? (json : Json) : Option Json :=
  json.get? "expression"

/-- How a value is written. Where a color is wanted a string is one, and an object is a stop
function unless it wraps an expression. -/
def Shape.classify (spec : PropertySpec) (json : Json) : Shape :=
  match json with
  | .string _ => if spec.kind = .color then .color else .constant
  | .object _ => if json.expression?.isSome then .expression else .stopFunction
  | _ => .constant

/-! ## Reading values -/

/-- Why a value is refused. -/
inductive PropertyValue.ReadError where
  | color (error : Color.ReadError)
  /-- The expression, or the one that a stop function stands for, is refused. -/
  | compile (error : CompileError)
  | stopFunction (error : StopFunction.ReadError)

/-- The message of the error that the reader of the value gave. -/
def PropertyValue.ReadError.message : PropertyValue.ReadError → String
  | .color e => e.message
  | .compile e => e.message
  | .stopFunction e => e.message

namespace PropertyValue

/-- The value of a color that is written as text. -/
def ofColorText (text : String) : Except ReadError PropertyValue :=
  match Color.read text with
  | .ok color => .ok (.constant (.color color))
  | .error e => .error (.color e)

/-- The value of an expression that is written in JSON. -/
def ofExpression (spec : PropertySpec) (json : Json) (options : CompileOptions) :
    Except ReadError PropertyValue :=
  match PropertyExpression.compile json spec options with
  | .ok compiled => .ok (.expression compiled)
  | .error e => .error (.compile e)

/-- The value of a stop function. Its default steps in for errors too. -/
def ofStopFunction (spec : PropertySpec) (json : Json) : Except ReadError PropertyValue :=
  match StopFunction.read json spec with
  | .ok function =>
    ofExpression spec function.expression { default := json.get? "default", converted := true }
  | .error e => .error (.stopFunction e)

/-- The value of a property, however it is written. -/
def read (spec : PropertySpec) (json : Json) : Except ReadError PropertyValue :=
  match Shape.classify spec json with
  | .color => ofColorText (json.string?.getD "")
  | .constant => .ok (.constant (.ofJson json))
  | .expression => ofExpression spec (json.expression?.getD .null) {}
  | .stopFunction => ofStopFunction spec json

end PropertyValue

end Symbology
