import Symbology.Expr.Outcome

set_option autoImplicit false

/-! # Evaluation

The outcome of an expression is built from the outcomes of the expressions below it by the
functions of `Outcome`. An expression always has an outcome, because the recursion follows the
tree. -/

namespace Symbology

namespace Context

/-- The zoom level, which is an error to ask for where there is none. -/
def zoomOutcome (context : Context) : Outcome :=
  match context.zoom with
  | some zoom => .ok (.number zoom)
  | none => .error .missingZoom

/-- The identity of the feature, or `null` if it has none or there is no feature. -/
def idValue (context : Context) : Value :=
  (context.feature.bind Feature.id).getD .null

/-- The geometry type of the feature, or `null` if it is not known or there is no feature. -/
def geometryValue (context : Context) : Value :=
  ((context.feature.bind Feature.geometryType).map Value.string).getD .null

/-- The property of the feature with a key, or `null`. -/
def propertyValue (context : Context) (key : String) : Value :=
  (context.properties.lookup key).getD .null

/-- Whether the feature has a property with a key. -/
def hasProperty (context : Context) (key : String) : Bool :=
  (context.properties.lookup key).isSome

end Context

namespace Expr

mutual

/-- The outcome of an expression in a context: each operator is applied to the outcomes of the
expressions below it, which are looked at only as far as the operator does. -/
def eval (context : Context) : Expr → Outcome
  | .literal value => .ok value
  | .get key =>
    ((eval context key).bind Value.needString).map context.propertyValue
  | .has key =>
    ((eval context key).bind Value.needString).map (fun k => .bool (context.hasProperty k))
  | .properties => .ok (.object context.properties)
  | .id => .ok context.idValue
  | .geometryType => .ok context.geometryValue
  | .zoom => context.zoomOutcome
  | .arithmetic operation args => Outcome.arithmetic operation (evalArgs context args)
  | .comparison relation left right =>
    Outcome.comparison relation (eval context left) (eval context right)
  | .not arg => Outcome.not (eval context arg)
  | .all args => Outcome.all (evalArgs context args)
  | .any args => Outcome.any (evalArgs context args)
  | .case branches otherwise =>
    Outcome.case (evalPairs context branches) (eval context otherwise)
  | .select input branches otherwise =>
    Outcome.select (eval context input) (evalBranches context branches) (eval context otherwise)
  | .coalesce args => Outcome.coalesce (evalArgs context args)
  | .assertion target args => Outcome.assertion target .null (evalArgs context args)
  | .conversion target args => Outcome.conversion target (evalArgs context args)
  | .rgba args => Outcome.rgba (evalArgs context args)
  | .step input first stops =>
    Outcome.step (eval context input) (eval context first) (evalStops context stops)
  | .interpolate interpolation input stops =>
    Outcome.interpolate interpolation (eval context input) (evalStops context stops)

/-- The outcomes of a list of arguments, one by one. -/
def evalArgs (context : Context) : List Expr → List Outcome
  | [] => []
  | arg :: rest => eval context arg :: evalArgs context rest

/-- The outcomes of conditions and of the outputs that belong to them. -/
def evalPairs (context : Context) : List (Expr × Expr) → List (Outcome × Outcome)
  | [] => []
  | (condition, output) :: rest =>
    (eval context condition, eval context output) :: evalPairs context rest

/-- The outcomes of the outputs of branches, beside the labels. -/
def evalBranches (context : Context) : List (List Value × Expr) → List (List Value × Outcome)
  | [] => []
  | (labels, output) :: rest => (labels, eval context output) :: evalBranches context rest

/-- The outcomes of the outputs of stops, beside the labels. -/
def evalStops (context : Context) : List (Float × Expr) → List (Float × Outcome)
  | [] => []
  | (label, output) :: rest => (label, eval context output) :: evalStops context rest

end

end Expr

end Symbology
