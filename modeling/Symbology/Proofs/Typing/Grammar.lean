import Symbology.Typing.Rules

set_option autoImplicit false

/-! # The grammar of expressions

Which JSON values have the form of an expression, whatever their types are. The form of an operator
says how many arguments it takes and what stands at the place of each: an expression, or a value
that is read in another way. `forms` lists the form of every operator. A value is grammatical if it
is a scalar, or a call of an operator whose arguments have its form and are grammatical themselves
where an expression is wanted. -/

namespace Symbology.Typing

/-! ## Places -/

/-- What stands at the place of an argument. -/
inductive Role where
  | expression
  /-- Any value, which is not looked at as an expression. -/
  | data
  /-- The kind of an interpolation. -/
  | interpolation
  /-- The label of a stop. -/
  | stopLabel
  /-- The labels of a branch. -/
  | branchLabels
  /-- The item type of an array. -/
  | itemType
  /-- The length of an array. -/
  | arrayLength
deriving DecidableEq

/-- The value can be read at the place. Of expressions nothing is asked here, and of the labels of a
branch nothing that does not depend on the other labels. -/
def Role.admits : Role → Json → Bool
  | .interpolation, json => (Typing.interpolation json).isOk
  | .stopLabel, json => json.number?.isSome
  | .itemType, json => (itemType? json).isSome
  | .arrayLength, json => json.nat?.isSome
  | _, _ => true

/-- Pairs of an argument with the given role and an expression; if the number is odd, the last
argument is an expression alone. -/
def alternating (first : Role) : Nat → List Role
  | 0 => []
  | 1 => [.expression]
  | count + 2 => first :: .expression :: alternating first count

/-! ## Forms -/

/-- The form of an operator. -/
structure Form where
  /-- The roles of so many arguments, if the operator takes so many. -/
  roles : Nat → Option (List Role)
  /-- What the operator can object to where each argument can be read at its place. -/
  objects : CompileError.Cause → Prop := fun _ => False

namespace Form

/-- The arguments at their places; there are none if the operator does not take so many. -/
def placed {α : Type} (form : Form) (args : List α) : List (Role × α) :=
  ((form.roles args.length).getD []).zip args

/-- The operator takes so many arguments, and each can be read at its place. -/
def Fits (form : Form) (args : List Json) : Prop :=
  (form.roles args.length).isSome = true ∧
    ∀ place ∈ form.placed args, place.1.admits place.2 = true

/-- Each argument has a role of its own. -/
def fixed (roles : List Role) : Form where
  roles count := if count = roles.length then some roles else none

/-- All arguments are expressions. -/
def expressions (takes : Nat → Bool) : Form where
  roles count := if takes count then some (List.replicate count .expression) else none

/-- A literal takes any value as data, and objects to texts that are no colors. -/
def literal : Form :=
  { fixed [.data] with objects := fun cause => ∃ error, cause = .color error }

/-- Sums and products take two numbers or more, differences one or two, and the rest two. -/
def arithmetic : Arithmetic → Form
  | .add | .multiply => expressions (2 ≤ ·)
  | .subtract => expressions (fun count => count = 1 ∨ count = 2)
  | _ => expressions (· = 2)

/-- A test for equality objects to types without a common value. -/
def equality : Form :=
  { expressions (· = 2) with objects := fun cause => ∃ left right, cause = .notComparable left right }

/-- A comparison by order objects to types without an order. -/
def order : Form :=
  { expressions (· = 2) with objects := fun cause => ∃ type, cause = .notOrdered type }

/-- An assertion of an array, with the item type and the length before the value. -/
def array : Form where
  roles
    | 1 => some [.expression]
    | 2 => some [.itemType, .expression]
    | 3 => some [.itemType, .arrayLength, .expression]
    | _ => none

/-- A conversion that may fail takes further arguments to try; one that cannot takes one. -/
def conversion : Conversion → Form
  | .number | .color => expressions (1 ≤ ·)
  | .string | .boolean => expressions (· = 1)

/-- The form of `case`. -/
def conditions : Form :=
  expressions (fun count => 3 ≤ count ∧ count % 2 = 1)

/-- The form of `match`. -/
def choice : Form where
  roles count :=
    if 4 ≤ count ∧ count % 2 = 0 then some (.expression :: alternating .branchLabels (count - 1))
    else none
  objects cause := cause ∈ [CompileError.Cause.noLabel, .labelKind, .labelRepeated]

/-- The outputs of a step are set apart by labels, with one before the first label. -/
def step : Form where
  roles count :=
    if 2 ≤ count ∧ count % 2 = 0 then
      some (.expression :: .expression :: alternating .stopLabel (count - 2))
    else none
  objects cause := cause = .stopOrder .step

/-- Each output of an interpolation is behind its label, and all are of a type that blends. -/
def interpolate : Form where
  roles count :=
    if 4 ≤ count ∧ count % 2 = 0 then
      some (.interpolation :: .expression :: alternating .stopLabel (count - 2))
    else none
  objects cause := cause = .stopOrder .interpolate ∨ ∃ type, cause = .notInterpolable type

end Form

/-- The form of every operator, in the order of the operators. -/
def forms : List (String × Form) :=
  [ ("literal", .literal),
    ("get", .fixed [.expression]),
    ("has", .fixed [.expression]),
    ("properties", .fixed []),
    ("id", .fixed []),
    ("geometry-type", .fixed []),
    ("zoom", .fixed []),
    ("+", .arithmetic .add),
    ("*", .arithmetic .multiply),
    ("-", .arithmetic .subtract),
    ("/", .arithmetic .divide),
    ("%", .arithmetic .remainder),
    ("^", .arithmetic .power),
    ("==", .equality),
    ("!=", .equality),
    ("<", .order),
    ("<=", .order),
    (">", .order),
    (">=", .order),
    ("!", .fixed [.expression]),
    ("all", .expressions (fun _ => true)),
    ("any", .expressions (fun _ => true)),
    ("case", .conditions),
    ("match", .choice),
    ("coalesce", .expressions (1 ≤ ·)),
    ("number", .expressions (1 ≤ ·)),
    ("string", .expressions (1 ≤ ·)),
    ("boolean", .expressions (1 ≤ ·)),
    ("object", .expressions (1 ≤ ·)),
    ("array", .array),
    ("to-number", .conversion .number),
    ("to-color", .conversion .color),
    ("to-string", .conversion .string),
    ("to-boolean", .conversion .boolean),
    ("rgb", .expressions (· = 3)),
    ("rgba", .expressions (· = 4)),
    ("step", .step),
    ("interpolate", .interpolate) ]

/-! ## The grammar -/

/-- **The grammar of expressions** with operators out of some names. -/
inductive Grammatical (names : List String) : Json → Prop
  | null : Grammatical names .null
  | bool (b : Bool) : Grammatical names (.bool b)
  | number (n : Json.Number) : Grammatical names (.number n)
  | string (s : String) : Grammatical names (.string s)
  | call {name : String} {form : Form} {args : List Json} (known : name ∈ names)
      (found : forms.lookup name = some form) (fits : form.Fits args)
      (expressions : ∀ arg, (Role.expression, arg) ∈ form.placed args → Grammatical names arg) :
      Grammatical names (.array (.string name :: args))

end Symbology.Typing
