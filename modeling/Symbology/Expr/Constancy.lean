import Symbology.Expr.Basic

set_option autoImplicit false

/-! # What an expression depends on

An expression is constant in the feature when none of its nodes reads the feature, and constant in
the zoom level when none of its nodes reads the zoom level. An expression that does read the zoom
level is only of use when it is a curve: a `step` or `interpolate` whose input is the zoom level
and whose outputs do not read it again. -/

namespace Symbology

namespace Expr

mutual

/-- Whether no node of the expression is one that `reads` holds of. -/
def free (reads : Expr → Bool) : Expr → Bool
  | .literal value => !reads (.literal value)
  | .get key => !reads (.get key) && free reads key
  | .has key => !reads (.has key) && free reads key
  | .properties => !reads .properties
  | .id => !reads .id
  | .geometryType => !reads .geometryType
  | .zoom => !reads .zoom
  | .arithmetic operation args => !reads (.arithmetic operation args) && freeArgs reads args
  | .comparison relation left right =>
    !reads (.comparison relation left right) && (free reads left && free reads right)
  | .not arg => !reads (.not arg) && free reads arg
  | .all args => !reads (.all args) && freeArgs reads args
  | .any args => !reads (.any args) && freeArgs reads args
  | .case branches otherwise =>
    !reads (.case branches otherwise) && (freePairs reads branches && free reads otherwise)
  | .select input branches otherwise =>
    !reads (.select input branches otherwise) &&
      (free reads input && freeBranches reads branches && free reads otherwise)
  | .coalesce args => !reads (.coalesce args) && freeArgs reads args
  | .assertion target args => !reads (.assertion target args) && freeArgs reads args
  | .conversion target args => !reads (.conversion target args) && freeArgs reads args
  | .rgba args => !reads (.rgba args) && freeArgs reads args
  | .step input first stops =>
    !reads (.step input first stops) &&
      (free reads input && free reads first && freeStops reads stops)
  | .interpolate interpolation input stops =>
    !reads (.interpolate interpolation input stops) && (free reads input && freeStops reads stops)

/-- Whether all arguments are free of such nodes. -/
def freeArgs (reads : Expr → Bool) : List Expr → Bool
  | [] => true
  | arg :: rest => free reads arg && freeArgs reads rest

/-- Whether all conditions and outputs are free of such nodes. -/
def freePairs (reads : Expr → Bool) : List (Expr × Expr) → Bool
  | [] => true
  | (condition, output) :: rest =>
    free reads condition && free reads output && freePairs reads rest

/-- Whether the outputs of all branches are free of such nodes. Labels are constants. -/
def freeBranches (reads : Expr → Bool) : List (List Value × Expr) → Bool
  | [] => true
  | (_, output) :: rest => free reads output && freeBranches reads rest

/-- Whether the outputs of all stops are free of such nodes. Labels are constants. -/
def freeStops (reads : Expr → Bool) : List (Float × Expr) → Bool
  | [] => true
  | (_, output) :: rest => free reads output && freeStops reads rest

end

/-- Whether the node itself looks at the feature: at a property, its identity or its geometry. -/
def readsFeature : Expr → Bool
  | .get _ | .has _ | .properties | .id | .geometryType => true
  | _ => false

/-- Whether the node itself looks at the zoom level. -/
def readsZoom : Expr → Bool
  | .zoom => true
  | _ => false

/-- Whether the expression looks at no feature, so that it is the same for all of them. -/
def isFeatureConstant (expr : Expr) : Bool :=
  free readsFeature expr

/-- Whether the expression does not look at the zoom level, so that it is the same at all. -/
def isZoomConstant (expr : Expr) : Bool :=
  free readsZoom expr

/-- How the value changes with the zoom level, if the expression is a curve over it. -/
def zoomCurve? : Expr → Option ZoomCurve
  | .step .zoom first stops =>
    if isZoomConstant first && freeStops readsZoom stops then
      some ⟨.step, stops.map (·.1)⟩
    else none
  | .interpolate interpolation .zoom stops =>
    if freeStops readsZoom stops then some ⟨interpolation, stops.map (·.1)⟩ else none
  | _ => none

end Expr

end Symbology
