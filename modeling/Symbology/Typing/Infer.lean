import Symbology.Typing.Rules

set_option autoImplicit false

/-! # Checking expressions

An expression is written in JSON: scalars are constants, an array is an operator with its
arguments, and an object is nothing. `Json.infer` checks a value from the outside in; the rule of
an operator decides which type it wants of each argument. -/

namespace Symbology

open Typing

/-- Applies the operator that stands at the head of an array to its arguments. -/
def Typing.apply (head : Json) (args : List Operand) (expected : Option ValueType) :
    Checked Typed :=
  match head with
  | .string name =>
    match rule? name with
    | some rule => rule args expected
    | none => .error ((CompileError.here (.unknownOperator name)).inside 0)
  | head => .error ((CompileError.here (.operatorKind head.kind)).inside 0)

namespace Json

mutual

/-- The expression that a value spells, not yet fitted to the type that is wanted. -/
def infer : Json → Option ValueType → Checked Typed
  | .array [], _ => .fail .noOperator
  | .array (head :: args), expected => Typing.apply head (operands 1 args) expected
  | .object _, _ => .fail .bareObject
  | .null, expected => Typed.constant expected .null
  | .bool b, expected => Typed.constant expected (.bool b)
  | .number n, expected => Typed.constant expected (.number n.toFloat)
  | .string s, expected => Typed.constant expected (.string s)

/-- The arguments of an operator; the first of them is at position `index`. -/
def operands (index : Nat) : List Json → List Operand
  | [] => []
  | json :: rest => ⟨index, json, infer json⟩ :: operands (index + 1) rest

end

/-- The expression that a value spells, fitted to the type that is wanted. -/
def check (json : Json) (expected : Option ValueType) : Checked Typed :=
  (json.infer expected).bind (Typed.reconcile expected)

end Json

end Symbology
