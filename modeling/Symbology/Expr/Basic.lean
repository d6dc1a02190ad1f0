import Symbology.Interpolation.Basic
import Symbology.Value.Type

set_option autoImplicit false

/-! # Expressions

The tree of an expression after it has been checked. Labels and interpolations are constants;
everything else below a node is an expression again. -/

namespace Symbology

/-- An operation on numbers. -/
inductive Arithmetic where
  | add
  /-- The difference, or the opposite of a single number. -/
  | subtract
  | multiply
  | divide
  | remainder
  | power
deriving DecidableEq, Repr

/-- The name of an operation in messages. -/
def Arithmetic.name : Arithmetic → String
  | .add => "Add"
  | .subtract => "Subtract"
  | .multiply => "Multiply"
  | .divide => "Divide"
  | .remainder => "Remainder"
  | .power => "Power"

/-- A comparison of two values by their order. -/
inductive Ordered where
  | less
  | lessEqual
  | greater
  | greaterEqual
deriving DecidableEq, Repr

/-- A comparison of two values. -/
inductive Comparison where
  | equal
  | notEqual
  | ordered (order : Ordered)
deriving DecidableEq, Repr

/-- What a value may be converted to. -/
inductive Conversion where
  | number
  | color
  | string
  | boolean
deriving DecidableEq, Repr

/-- The type that a converted value has. -/
def Conversion.type : Conversion → ValueType
  | .number => .number
  | .color => .color
  | .string => .string
  | .boolean => .boolean

/-- An expression. -/
inductive Expr where
  | literal (value : Value)
  /-- The property of the feature with a key. -/
  | get (key : Expr)
  /-- Whether the feature has a property with a key. -/
  | has (key : Expr)
  /-- All properties of the feature. -/
  | properties
  /-- The identity of the feature. -/
  | id
  | geometryType
  | zoom
  | arithmetic (operation : Arithmetic) (args : List Expr)
  | comparison (relation : Comparison) (left right : Expr)
  | not (arg : Expr)
  /-- Whether all arguments are true. -/
  | all (args : List Expr)
  /-- Whether one of the arguments is true. -/
  | any (args : List Expr)
  /-- The output of the first branch whose condition is true. -/
  | case (branches : List (Expr × Expr)) (otherwise : Expr)
  /-- The output of the first branch with a label that equals the input. -/
  | select (input : Expr) (branches : List (List Value × Expr)) (otherwise : Expr)
  /-- The first argument that is not `null`. -/
  | coalesce (args : List Expr)
  /-- The first argument of a type. -/
  | assertion (target : ValueType) (args : List Expr)
  /-- The first argument that can be converted, after conversion. -/
  | conversion (target : Conversion) (args : List Expr)
  | rgba (args : List Expr)
  /-- The output of the last stop at or below the input, and `first` below all stops. -/
  | step (input first : Expr) (stops : List (Float × Expr))
  /-- The output between the two stops around the input. -/
  | interpolate (interpolation : Interpolation) (input : Expr) (stops : List (Float × Expr))

namespace Expr

instance : Inhabited Expr := ⟨.literal .null⟩

end Expr

end Symbology
