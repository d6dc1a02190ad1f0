import Symbology.Interpolation.UnitBezier
import Symbology.Number.Power

set_option autoImplicit false

/-! # Interpolation between stops

A stop has a label, a number. An input between the labels of two stops lies some part of the way
from the lower to the upper one; an interpolation says how that part becomes the weight of the
upper stop. -/

namespace Symbology

/-- How values change between two stops. -/
inductive Interpolation where
  /-- They do not: the lower stop holds up to the next one. -/
  | step
  /-- At an even rate. -/
  | linear
  /-- At a rate that grows by the factor `base`; for 1 it is even. -/
  | exponential (base : Float)
  /-- Along a Bézier curve with the control points `(x₁, y₁)` and `(x₂, y₂)`. -/
  | cubicBezier (x₁ y₁ x₂ y₂ : Float)
deriving DecidableEq

namespace Interpolation

/-- The part of the way from `lower` to `upper` at `input`, at a rate that grows by `base`. -/
def exponentialFactor (base input lower upper : Float) : Float :=
  let difference := upper - lower
  let progress := input - lower
  if difference == 0 then 0
  else if base == 1 then progress / difference
  else (Number.power base progress - 1) / (Number.power base difference - 1)

/-- The weight of the stop at `upper` when `input` lies between it and the one at `lower`. -/
def factor (interpolation : Interpolation) (input lower upper : Float) : Float :=
  match interpolation with
  | .step => 0
  | .linear => exponentialFactor 1 input lower upper
  | .exponential base => exponentialFactor base input lower upper
  | .cubicBezier x₁ y₁ x₂ y₂ =>
    (UnitBezier.ofControlPoints x₁ y₁ x₂ y₂).solve 1e-6 (exponentialFactor 1 input lower upper)

end Interpolation

/-- How a value changes with the zoom level. -/
structure ZoomCurve where
  interpolation : Interpolation
  /-- The labels of the stops, in ascending order. -/
  labels : List Float

end Symbology
