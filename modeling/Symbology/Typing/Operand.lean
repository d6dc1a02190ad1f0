import Symbology.Typing.Error

set_option autoImplicit false

/-! # Typed expressions and operands

The rule of an operator sees its arguments as operands: each has its JSON value, its position in
the array of the operator, and the answer of the checker for it. `Typed.reconcile` fits an
expression to the type that is wanted: a value of any type is checked when it is evaluated, `null`
passes as a value of every type, and all else has to have the type already. -/

namespace Symbology

/-- An expression and the type of its values. -/
structure Typed where
  /-- The expression. -/
  expr : Expr
  /-- The type of its values. -/
  type : ValueType

/-- What the checker answers, or why it refuses an expression. -/
abbrev Checked (α : Type) := Except CompileError α

namespace Typed

/-- A constant as an expression, with the most exact type of its value. -/
def literal (value : Value) : Typed :=
  ⟨.literal value, value.type⟩

/-- The value of a constant where a type may be wanted: where a color is wanted, a string is read
as one. -/
def constantValue (expected : Option ValueType) (value : Value) : Checked Value :=
  match expected, value with
  | some .color, .string s =>
    match Color.read s with
    | .ok color => .ok (.color color)
    | .error e => .error (.here (.color e))
  | _, value => .ok value

/-- A constant where a type may be wanted. A text where a color is wanted is read as one. -/
def constant (expected : Option ValueType) (value : Value) : Checked Typed :=
  (constantValue expected value).map literal

/-- The expression that makes sure that `expr` yields a value of a type. -/
def guard (target : ValueType) (expr : Expr) : Expr :=
  match target with
  | .color => .conversion .color [expr]
  | target => .assertion target [expr]

/-- Fits an expression to the type that is wanted. -/
def reconcile (expected : Option ValueType) (typed : Typed) : Checked Typed :=
  match expected with
  | none => .ok typed
  | some expected =>
    if expected.accepts typed.type then .ok typed
    else if typed.type = .null then .ok ⟨typed.expr, expected⟩
    else if typed.type = .value then .ok ⟨guard expected typed.expr, expected⟩
    else .error (.here (.typeMismatch expected typed.type))

end Typed

/-- An argument of an operator. -/
structure Operand where
  /-- The position of the argument in the array; the operator is at position 0. -/
  index : Nat
  /-- The argument as it is written. -/
  json : Json
  /-- The expression that is written, given the type that is wanted. -/
  infer : Option ValueType → Checked Typed

namespace Operand

/-- An error at the argument, seen from the operator. -/
def fail {α : Type} (o : Operand) (cause : CompileError.Cause) : Checked α :=
  .error ((CompileError.here cause).inside o.index)

/-- An answer about the argument, with errors placed in the argument. -/
def located {α : Type} (o : Operand) (answer : Checked α) : Checked α :=
  answer.mapError (·.inside o.index)

/-- The argument with the type that is inferred for it, which need not be the one that is wanted. -/
def inferred (o : Operand) (expected : Option ValueType) : Checked Typed :=
  o.located (o.infer expected)

/-- The argument, fitted to the type that is wanted. -/
def check (o : Operand) (expected : Option ValueType) : Checked Typed :=
  o.located ((o.infer expected).bind (Typed.reconcile expected))

/-- The expression of the argument, fitted to the type that is wanted. -/
def checkExpr (o : Operand) (expected : Option ValueType) : Checked Expr :=
  (o.check expected).map Typed.expr

end Operand

/-- The expressions of all arguments, each fitted to the type that is wanted. -/
def Operand.checkAll (args : List Operand) (expected : Option ValueType) : Checked (List Expr) :=
  args.mapM (·.checkExpr expected)

/-- An error at the operator as a whole. -/
def Checked.fail {α : Type} (cause : CompileError.Cause) : Checked α :=
  .error (.here cause)

end Symbology
