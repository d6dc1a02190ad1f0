import Symbology.PropertyValue

set_option autoImplicit false

/-! # Declarations

A declaration gives a value to a style property. It keeps what the author wrote, so that a change
can be noticed, and answers what the property is at a zoom level and for a feature. -/

namespace Symbology

/-- The value of a style property, ready to be evaluated. -/
structure Declaration where
  /-- The value as it is written. -/
  written : Json
  shape : Shape
  minimum : Option Float
  value : PropertyValue

namespace Declaration

/-- The declaration of a value, if the value can be read. It keeps the lower bound of the property
beside the value, which is not changed by it. -/
def read (spec : PropertySpec) (json : Json) : Except PropertyValue.ReadError Declaration :=
  (PropertyValue.read spec json).map (fun value =>
    ⟨json, Shape.classify spec json, spec.minimum, value⟩)

/-- The canonical text of what is written, by which a change is noticed. -/
def canonicalText (declaration : Declaration) : String :=
  declaration.written.canonical

/-- What is written is an object with an expression. -/
def holdsExpression (declaration : Declaration) : Bool :=
  declaration.written.expression?.isSome

/-- A value that is not below the lower bound; only numbers have one. -/
def raise (minimum : Option Float) (value : Value) : Value :=
  match value, minimum with
  | .number x, some bound => if x < bound then .number bound else .number x
  | value, _ => value

/-- The outcome for a zoom level and a feature, not below the lower bound. -/
def evaluate (declaration : Declaration) (context : Context) : Outcome :=
  (declaration.value.evaluate context).map (raise declaration.minimum)

/-- The weight of the upper of two stops at a zoom level; it is zero when the value does not change
with the zoom level. -/
def factor (declaration : Declaration) (zoom lower upper : Float) : Float :=
  if declaration.value.isZoomConstant then 0
  else match declaration.value.zoomCurve? with
    | some curve => curve.interpolation.factor zoom lower upper
    | none => 0

end Declaration

end Symbology
