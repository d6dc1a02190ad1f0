import Symbology.Expr.Constancy
import Symbology.Expr.Eval
import Symbology.PropertySpec.Basic
import Symbology.Typing.Infer

set_option autoImplicit false

/-! # Expressions for a style property

An expression that is compiled for a property yields the type of the property. It reads the feature
and the zoom level only where the property allows it, and the zoom level only as a curve. Where it
yields `null` the default of the property steps in. -/

namespace Symbology

/-- What else a compiled expression depends on. -/
structure CompileOptions where
  /-- A default that is used in place of the one of the property, unless it is `null`. -/
  default : Option Json := none
  /-- The expression stands for a stop function. -/
  converted : Bool := false

/-- An expression that was checked for a property. -/
structure PropertyExpression where
  expr : Expr
  type : ValueType
  /-- The value that steps in for `null`. -/
  default : Option Value
  /-- The default steps in for errors too. -/
  recovers : Bool
  /-- The expression stands for a stop function. -/
  converted : Bool

namespace PropertyExpression

/-- The value of a default, which has to be a constant of the type that is wanted. -/
def defaultValue (expected : ValueType) (json : Json) : Checked Value :=
  let value := (Typed.constantValue (some expected) (.ofJson json)).bind (fun value =>
    if expected.accepts value.type then .ok value
    else .error (.here (.typeMismatch expected value.type)))
  value.mapError (fun e => ⟨.default, e.cause⟩)

/-- Refuses an expression that depends on what the property does not allow. -/
def allowed (spec : PropertySpec) (expr : Expr) : Checked Unit :=
  if !expr.isFeatureConstant && !spec.featureDependent then .fail .featureDependent
  else if !expr.isZoomConstant && !spec.zoomDependent then .fail .zoomDependent
  else if !expr.isZoomConstant && expr.zoomCurve?.isNone then .fail .zoomMisplaced
  else .ok ()

/-- The default that steps in for `null`: the one of the options, or else that of the property. -/
def chosenDefault (spec : PropertySpec) (options : CompileOptions) : Option Json :=
  (options.default.filter (!·.isNull)).or spec.default?

/-- The expression for a property that a JSON value spells. It is checked against the type of the
property, then for what it depends on, and last of all the default is checked. -/
def compile (json : Json) (spec : PropertySpec) (options : CompileOptions) :
    Checked PropertyExpression := do
  let typed ← json.check (some spec.type)
  allowed spec typed.expr
  let default ← (chosenDefault spec options).mapM (defaultValue spec.type)
  return {
    expr := typed.expr
    type := typed.type
    default
    recovers := options.converted && (options.default.filter (!·.isNull)).isSome
    converted := options.converted }

/-- The outcome of the expression, with the default in place of `null`, and of errors if the
expression recovers from them. -/
def evaluate (compiled : PropertyExpression) (context : Context) : Outcome :=
  match compiled.expr.eval context with
  | .ok .null => .ok (compiled.default.getD .null)
  | .ok value => .ok value
  | .error e =>
    match compiled.default with
    | some default => if compiled.recovers then .ok default else .error e
    | none => .error e

end PropertyExpression

end Symbology
