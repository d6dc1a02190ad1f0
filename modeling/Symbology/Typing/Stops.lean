import Symbology.Typing.Operand

set_option autoImplicit false

/-! # Operators with stops

The labels of stops are numbers that are written out and ascend. The outputs share one type: the
one that is wanted, or else that of the first output. -/

namespace Symbology.Typing

/-- The label of a stop: a number above the label before it. -/
def stopLabel (operator : StopOperator) (previous : Option Float) (o : Operand) : Checked Float :=
  match o.json.number? with
  | none => o.fail (.stopLabel operator)
  | some label =>
    if previous.any (fun p => label ≤ p) then o.fail (.stopOrder operator) else .ok label

/-- The stops, and the type that their outputs share. -/
def stops (operator : StopOperator) (previous : Option Float) (output : Option ValueType) :
    List Operand → Checked (List (Float × Expr) × Option ValueType)
  | [] => .ok ([], output)
  | [_] => .fail .countNotEven
  | label :: result :: rest => do
    let at' ← stopLabel operator previous label
    let typed ← result.check output
    let (others, output) ← stops operator (some at') (some (output.getD typed.type)) rest
    return ((at', typed.expr) :: others, output)

/-- The operator `step`: a number as the input, the output below all stops, and labels and outputs
in turn. Its first output settles the type of the others, unless a type is wanted. -/
def stepRule (args : List Operand) (expected : Option ValueType) : Checked Typed :=
  if args.length < 2 then .fail (.tooFewArguments 2 args.length)
  else if args.length % 2 = 1 then .fail .countNotEven
  else match args with
    | input :: first :: rest => do
      let input ← input.checkExpr (some .number)
      let first ← first.check expected
      let output := expected.getD first.type
      let (stops, _) ← stops .step none (some output) rest
      return ⟨.step input first.expr stops, output⟩
    | _ => .fail .countNotEven

/-! ## Interpolation -/

/-- The interpolation that a value spells. The inputs of its control points have to lie between zero
and one, but their outputs need not. -/
def interpolation (json : Json) : Except CompileError.Cause Interpolation :=
  let inUnit (x : Float) : Bool := decide (0 ≤ x) && decide (x ≤ 1)
  match json with
  | .array [.string "linear"] => .ok .linear
  | .array [.string "exponential", .number base] => .ok (.exponential base.toFloat)
  | .array [.string "cubic-bezier", .number x₁, .number y₁, .number x₂, .number y₂] =>
    if inUnit x₁.toFloat && inUnit x₂.toFloat then
      .ok (.cubicBezier x₁.toFloat y₁.toFloat x₂.toFloat y₂.toFloat)
    else .error .controlPoints
  | json => .error (.unknownInterpolation json)

/-- Whether values of a type blend. The length of an array of numbers has to be known. -/
def isInterpolable : ValueType → Bool
  | .number | .color | .array .number (some _) => true
  | _ => false

/-- The operator `interpolate`: how to blend, a number as the input, and labels and outputs in turn.
The outputs have to be of one type that blends. -/
def interpolateRule (args : List Operand) (expected : Option ValueType) : Checked Typed :=
  if args.length < 4 then .fail (.tooFewArguments 4 args.length)
  else if args.length % 2 = 1 then .fail .countNotEven
  else match args with
    | kind :: input :: rest => do
      let kind ← kind.located ((interpolation kind.json).mapError .here)
      let input ← input.checkExpr (some .number)
      let (stops, output) ← stops .interpolate none expected rest
      let type := output.getD .value
      if isInterpolable type then return ⟨.interpolate kind input stops, type⟩
      else .fail (.notInterpolable type)
    | _ => .fail .countNotEven

end Symbology.Typing
