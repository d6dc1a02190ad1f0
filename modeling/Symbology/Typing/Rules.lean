import Symbology.Typing.Branches
import Symbology.Typing.Stops

set_option autoImplicit false

/-! # The operators

`operators` lists every operator by its name, with the rule that checks its arguments. -/

namespace Symbology.Typing

/-- What an operator makes of its arguments, given the type that is wanted. -/
abbrev Rule := List Operand → Option ValueType → Checked Typed

/-- Refuses any other number of arguments. -/
def expectCount (count : Nat) (args : List Operand) : Checked Unit :=
  if args.length = count then .ok () else .fail (.argumentCount count args.length)

/-- Refuses fewer arguments. -/
def expectAtLeast (least : Nat) (args : List Operand) : Checked Unit :=
  if args.length < least then .fail (.tooFewArguments least args.length) else .ok ()

/-! ## Constants and the feature -/

/-- The operator `literal`: its argument is a value and not an expression. -/
def literalRule : Rule
  | [arg], expected => Typed.constant expected (.ofJson arg.json)
  | args, _ => .fail (.argumentCount 1 args.length)

/-- The rule of an operator without arguments. -/
def plainRule (expr : Expr) (type : ValueType) : Rule := fun args _ => do
  expectCount 0 args
  return ⟨expr, type⟩

/-- The rule of an operator with one argument, which has to have the type `argument`. -/
def unaryRule (argument : ValueType) (build : Expr → Expr) (type : ValueType) : Rule
  | [arg], _ => do return ⟨build (← arg.checkExpr (some argument)), type⟩
  | args, _ => .fail (.argumentCount 1 args.length)

/-! ## Numbers and truth values -/

/-- Refuses a number of operands that the operation does not take. -/
def expectOperands (operation : Arithmetic) (args : List Operand) : Checked Unit :=
  match operation with
  | .add | .multiply => expectAtLeast 2 args
  | .subtract => if args.length = 1 then .ok () else expectCount 2 args
  | _ => expectCount 2 args

/-- The rule of an operation on numbers, which yields a number. -/
def arithmeticRule (operation : Arithmetic) : Rule := fun args _ => do
  expectOperands operation args
  return ⟨.arithmetic operation (← Operand.checkAll args (some .number)), .number⟩

/-- The rule of an operator on any number of truth values. -/
def logicRule (build : List Expr → Expr) : Rule := fun args _ => do
  return ⟨build (← Operand.checkAll args (some .boolean)), .boolean⟩

/-! ## Comparisons -/

/-- Values of one of the types may equal values of the other. -/
def mayEqual (left right : ValueType) : Bool :=
  left == .value || right == .value || left.accepts right || right.accepts left

/-- The rule of a comparison for equality. The types of both sides have to have values in common. -/
def equalityRule (relation : Comparison) : Rule
  | [left, right], _ => do
    let left ← left.check none
    let right ← right.check none
    if mayEqual left.type right.type then
      return ⟨.comparison relation left.expr right.expr, .boolean⟩
    else .fail (.notComparable left.type right.type)
  | args, _ => .fail (.argumentCount 2 args.length)

/-- The type of the right operand of a comparison by order, given the type of the left one. -/
def orderedWith : ValueType → Except CompileError.Cause (Option ValueType)
  | .number => .ok (some .number)
  | .string => .ok (some .string)
  | .value => .ok none
  | type => .error (.notOrdered type)

/-- The rule of a comparison by order. What is wanted on the right depends on the type of the left
side. -/
def orderRule (order : Ordered) : Rule
  | [left, right], _ => do
    let typed ← left.check none
    let expected ← left.located ((orderedWith typed.type).mapError .here)
    let right ← right.checkExpr expected
    return ⟨.comparison (.ordered order) typed.expr right, .boolean⟩
  | args, _ => .fail (.argumentCount 2 args.length)

/-! ## Types at run time -/

/-- The assertion that one of the arguments is of a type. -/
def assertionRule (target : ValueType) : Rule := fun args _ => do
  expectAtLeast 1 args
  return ⟨.assertion target (← Operand.checkAll args none), target⟩

/-- The item type that is written in the assertion of an array. -/
def itemType? : Json → Option ValueType
  | .string "number" => some .number
  | .string "string" => some .string
  | .string "boolean" => some .boolean
  | _ => none

/-- The item type that an argument names, as it stands and without being evaluated. -/
def itemType (o : Operand) : Checked ValueType :=
  match itemType? o.json with
  | some type => .ok type
  | none => o.fail .arrayItem

/-- The length that an argument gives, as it stands and without being evaluated. -/
def arrayLength (o : Operand) : Checked Nat :=
  match o.json.nat? with
  | some n => .ok n
  | none => o.fail .arrayLength

/-- The assertion that a value is an array of a type. -/
def assertArray (item : ValueType) (length : Option Nat) (value : Operand) : Checked Typed := do
  let target := .array item length
  return ⟨.assertion target [← value.checkExpr none], target⟩

/-- The operator `array`: an item type and a length may stand before the value. -/
def arrayRule : Rule
  | [value], _ => assertArray .value none value
  | [item, value], _ => do assertArray (← itemType item) none value
  | [item, length, value], _ => do
    let item ← itemType item
    let length ← arrayLength length
    assertArray item (some length) value
  | args, _ => .fail (.arrayCount args.length)

/-- Refuses a number of arguments that the conversion does not take. -/
def expectConvertible (target : Conversion) (args : List Operand) : Checked Unit :=
  match target with
  | .number | .color => expectAtLeast 1 args
  | .string | .boolean => expectCount 1 args

/-- The rule of a conversion, which takes arguments of any type. -/
def conversionRule (target : Conversion) : Rule := fun args _ => do
  expectConvertible target args
  return ⟨.conversion target (← Operand.checkAll args none), target.type⟩

/-- The rule of a color with `count` channels. -/
def rgbaRule (count : Nat) : Rule := fun args _ => do
  expectCount count args
  return ⟨.rgba (← Operand.checkAll args (some .number)), .color⟩

/-! ## The table -/

/-- The operators with their rules. -/
def operators : List (String × Rule) :=
  [ ("literal", literalRule),
    ("get", unaryRule .string .get .value),
    ("has", unaryRule .string .has .boolean),
    ("properties", plainRule .properties .object),
    ("id", plainRule .id .value),
    ("geometry-type", plainRule .geometryType .string),
    ("zoom", plainRule .zoom .number),
    ("+", arithmeticRule .add),
    ("*", arithmeticRule .multiply),
    ("-", arithmeticRule .subtract),
    ("/", arithmeticRule .divide),
    ("%", arithmeticRule .remainder),
    ("^", arithmeticRule .power),
    ("==", equalityRule .equal),
    ("!=", equalityRule .notEqual),
    ("<", orderRule .less),
    ("<=", orderRule .lessEqual),
    (">", orderRule .greater),
    (">=", orderRule .greaterEqual),
    ("!", unaryRule .boolean .not .boolean),
    ("all", logicRule .all),
    ("any", logicRule .any),
    ("case", caseRule),
    ("match", matchRule),
    ("coalesce", coalesceRule),
    ("number", assertionRule .number),
    ("string", assertionRule .string),
    ("boolean", assertionRule .boolean),
    ("object", assertionRule .object),
    ("array", arrayRule),
    ("to-number", conversionRule .number),
    ("to-color", conversionRule .color),
    ("to-string", conversionRule .string),
    ("to-boolean", conversionRule .boolean),
    ("rgb", rgbaRule 3),
    ("rgba", rgbaRule 4),
    ("step", stepRule),
    ("interpolate", interpolateRule) ]

/-- The rule of the operator with a name. -/
def rule? (name : String) : Option Rule :=
  operators.lookup name

end Symbology.Typing
