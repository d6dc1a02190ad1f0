import Symbology.Color.Reader
import Symbology.Expr.Outcome
import Symbology.Json.Printer

set_option autoImplicit false

/-! # Why an expression is refused

An error has a cause and a place: the way from the root of the JSON value down to the node that is
to blame, as the position of a part in each array that is passed. -/

namespace Symbology

/-- What is wrong with an expression. -/
inductive CompileError.Cause where
  /-- An object stands where an expression is wanted. -/
  | bareObject
  | noOperator
  /-- The operator of an array is not a string but a value of this kind. -/
  | operatorKind (kind : String)
  | unknownOperator (name : String)
  | argumentCount (expected found : Nat)
  /-- The operator takes more arguments. -/
  | tooFewArguments (least found : Nat)
  /-- An operator with branches takes more arguments. -/
  | tooFewBranches (least found : Nat)
  | countNotOdd
  | countNotEven
  /-- The assertion of an array takes one, two or three arguments. -/
  | arrayCount (found : Nat)
  /-- The item type of an array is none of those that can be asserted. -/
  | arrayItem
  /-- The length of an array is not a whole number. -/
  | arrayLength
  | typeMismatch (expected actual : ValueType)
  | color (error : Color.ReadError)
  | noLabel
  /-- The label of a branch is of a kind that no label has. -/
  | labelKind
  | labelRepeated
  /-- The label of a stop is not a number. -/
  | stopLabel (operator : StopOperator)
  /-- The labels of the stops do not ascend. -/
  | stopOrder (operator : StopOperator)
  /-- The control points of a Bézier curve are not four numbers in range. -/
  | controlPoints
  | unknownInterpolation (json : Json)
  | notInterpolable (type : ValueType)
  | notOrdered (type : ValueType)
  | notComparable (left right : ValueType)
  /-- The property may not depend on the feature. -/
  | featureDependent
  /-- The property may not depend on the zoom level. -/
  | zoomDependent
  /-- The zoom level is read at a place where it is of no use. -/
  | zoomMisplaced

/-- Where an error is. -/
inductive CompileError.Place where
  /-- At the node that is reached by these positions, from the root down. -/
  | node (path : List Nat)
  | default
deriving DecidableEq, Repr

/-- Why an expression is refused. -/
structure CompileError where
  place : CompileError.Place
  cause : CompileError.Cause

namespace CompileError

/-- An error at the root. -/
def here (cause : Cause) : CompileError :=
  ⟨.node [], cause⟩

/-- The error of the part at `index`, seen from the array around it. -/
def inside (index : Nat) (e : CompileError) : CompileError :=
  match e.place with
  | .node path => ⟨.node (index :: path), e.cause⟩
  | .default => e

/-- The text of a place: the positions behind a sign for the root, or the word for the default. -/
def Place.text : Place → String
  | .node path => path.foldl (fun text index => text ++ "[" ++ toString index ++ "]") "$"
  | .default => "default"

/-- The advice for an author who meant an array of data. -/
def arrayHint : String :=
  "If you wanted a literal array, use [\"literal\", [...]]."

/-- What is wrong, in words. -/
def Cause.text : Cause → String
  | .bareObject => "Bare objects invalid. Use [\"literal\", \x7b...\x7d] instead."
  | .noOperator =>
    "Expected an array with at least one element. " ++
      "If you wanted a literal array, use [\"literal\", []]."
  | .operatorKind kind =>
    "Expression name must be a string, but found " ++ kind ++ " instead. " ++ arrayHint
  | .unknownOperator name => "Unknown expression \"" ++ name ++ "\". " ++ arrayHint
  | .argumentCount expected found =>
    "Expected " ++ toString expected ++ " argument" ++ (if expected = 1 then "" else "s") ++
      ", but found " ++ toString found ++ " instead."
  | .tooFewArguments least found =>
    "Expected at least " ++ toString least ++ " arguments, but found " ++ toString found ++
      " instead."
  | .tooFewBranches least found =>
    "Expected at least " ++ toString least ++ " arguments, but found only " ++ toString found ++
      "."
  | .countNotOdd => "Expected an odd number of arguments."
  | .countNotEven => "Expected an even number of arguments."
  | .arrayCount found =>
    "Expected 1, 2, or 3 arguments, but found " ++ toString found ++ " instead."
  | .arrayItem =>
    "The item type argument of \"array\" must be one of string, number, boolean"
  | .arrayLength => "The length argument to \"array\" must be a positive integer literal"
  | .typeMismatch expected actual =>
    "Expected " ++ expected.text ++ " but found " ++ actual.text ++ " instead."
  | .color e => e.message
  | .noLabel => "Expected at least one branch label."
  | .labelKind => "Branch labels must be numbers, strings, or booleans."
  | .labelRepeated => "Branch labels must be unique."
  | .stopLabel operator =>
    "Input/output pairs for \"" ++ operator.name ++ "\" expressions must be defined using " ++
      "literal numeric values (not computed expressions) for the input values."
  | .stopOrder operator =>
    "Input/output pairs for \"" ++ operator.name ++ "\" expressions must be arranged with " ++
      "input values in strictly ascending order."
  | .controlPoints =>
    "Cubic bezier interpolation requires four numeric arguments with values between 0 and 1."
  | .unknownInterpolation json => "Unknown interpolation type " ++ json.compact
  | .notInterpolable type => "Type " ++ type.text ++ " is not interpolatable."
  | .notOrdered type => "Order comparisons are not supported for type " ++ type.text ++ "."
  | .notComparable left right => "Cannot compare " ++ left.text ++ " and " ++ right.text ++ "."
  | .featureDependent => "Data expressions are not supported for this property."
  | .zoomDependent => "Zoom expressions are not supported for this property."
  | .zoomMisplaced =>
    "\"zoom\" expression may only be used as input to a top-level \"step\" or " ++
      "\"interpolate\" expression."

/-- The message says where the error is and what is wrong. -/
def message (e : CompileError) : String :=
  e.place.text ++ ": " ++ e.cause.text

end CompileError

end Symbology
