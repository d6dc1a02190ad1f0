set_option autoImplicit false

/-! # Cubic Bézier curves on the unit square

A curve runs from `(0, 0)` to `(1, 1)` and is bent by two control points. Both coordinates are
polynomials in a parameter. To read the curve as a function, the parameter of a given `x` is
searched: first by Newton's method, then by halving an interval.

The scalars are left open: the curve is evaluated on floating-point numbers, and the same steps
can be followed on exact fractions. -/

namespace Symbology

/-- The coefficients of the two polynomials `a · t³ + b · t² + c · t`. -/
structure UnitBezier (α : Type) where
  /-- The coefficient of `t³` in `x`. -/
  cubicX : α
  /-- The coefficient of `t²` in `x`. -/
  quadraticX : α
  /-- The coefficient of `t` in `x`. -/
  linearX : α
  /-- The coefficient of `t³` in `y`. -/
  cubicY : α
  /-- The coefficient of `t²` in `y`. -/
  quadraticY : α
  /-- The coefficient of `t` in `y`. -/
  linearY : α

namespace UnitBezier

variable {α : Type} [Add α] [Sub α] [Mul α] [Div α] [OfScientific α]

/-- The curve with the control points `(x₁, y₁)` and `(x₂, y₂)`. -/
def ofControlPoints (x₁ y₁ x₂ y₂ : α) : UnitBezier α :=
  let linearX := 3.0 * x₁
  let quadraticX := 3.0 * (x₂ - x₁) - linearX
  let linearY := 3.0 * y₁
  let quadraticY := 3.0 * (y₂ - y₁) - linearY
  { cubicX := 1.0 - linearX - quadraticX, quadraticX, linearX,
    cubicY := 1.0 - linearY - quadraticY, quadraticY, linearY }

/-- The `x` of the point with the parameter `t`. -/
def sampleX (curve : UnitBezier α) (t : α) : α :=
  ((curve.cubicX * t + curve.quadraticX) * t + curve.linearX) * t

/-- The `y` of the point with the parameter `t`. -/
def sampleY (curve : UnitBezier α) (t : α) : α :=
  ((curve.cubicY * t + curve.quadraticY) * t + curve.linearY) * t

/-- The slope of `x` over the parameter, at `t`. -/
def slopeX (curve : UnitBezier α) (t : α) : α :=
  (3.0 * curve.cubicX * t + 2.0 * curve.quadraticX) * t + curve.linearX

variable [LT α] [LE α] [DecidableLT α] [DecidableLE α]

/-- The difference between `a` and `b` is below `epsilon`. -/
def isNear (epsilon a b : α) : Bool :=
  let difference := a - b
  if difference < 0.0 then decide (0.0 - difference < epsilon) else decide (difference < epsilon)

/-- Newton's method for the parameter of `x`, from `t` on and with `steps` steps at most. It gives
up when the slope vanishes or the steps are used up. -/
def newton (curve : UnitBezier α) (epsilon x : α) : (steps : Nat) → (t : α) → Option α
  | 0, _ => none
  | steps + 1, t =>
    if isNear epsilon (curve.sampleX t) x then some t
    else if isNear 1e-6 (curve.slopeX t) 0.0 then none
    else newton curve epsilon x steps (t - (curve.sampleX t - x) / curve.slopeX t)

/-- Halves the interval from `low` to `high` around the parameter of `x`, `steps` times at most; `t`
is the parameter that is tried next. -/
def bisect (curve : UnitBezier α) (epsilon x : α) : (steps : Nat) → (low high t : α) → α
  | 0, _, _, t => t
  | steps + 1, low, high, t =>
    if isNear epsilon (curve.sampleX t) x then t
    else if curve.sampleX t < x then bisect curve epsilon x steps t high (t + (high - t) * 0.5)
    else bisect curve epsilon x steps low t (low + (t - low) * 0.5)

/-- The parameter whose `x` is given, up to `epsilon`. -/
def solveX (curve : UnitBezier α) (epsilon x : α) : α :=
  match curve.newton epsilon x 8 x with
  | some t => t
  | none =>
    -- halving needs an `x` between those of the ends
    if x ≤ 0.0 then 0.0
    else if 1.0 ≤ x then 1.0
    else curve.bisect epsilon x 64 0.0 1.0 x

/-- The `y` of the curve above `x`, whose parameter is searched up to `epsilon`. -/
def solve (curve : UnitBezier α) (epsilon x : α) : α :=
  curve.sampleY (curve.solveX epsilon x)

end UnitBezier

end Symbology
