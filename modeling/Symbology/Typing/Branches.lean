import Symbology.Typing.Operand

set_option autoImplicit false

/-! # Operators with branches

In `case`, `match` and `coalesce` the outputs share one type: the one that is wanted, or else that
of the first output. Arguments are checked from left to right, so of two errors the left one is
told. -/

namespace Symbology.Typing

/-! ## Choice by conditions -/

/-- The conditions, the outputs and the last output of `case`. The first output settles the type of
the others, unless a type is wanted. -/
def caseBranches (output : Option ValueType) :
    List Operand → Checked (List (Expr × Expr) × Typed)
  | [] => .fail .countNotOdd
  | [last] => do
    let otherwise ← last.check output
    return ([], ⟨otherwise.expr, output.getD otherwise.type⟩)
  | condition :: result :: rest => do
    let test ← condition.checkExpr (some .boolean)
    let typed ← result.check output
    let (branches, otherwise) ← caseBranches (some (output.getD typed.type)) rest
    return ((test, typed.expr) :: branches, otherwise)

/-- The operator `case`: conditions and outputs in turn, and an output if none of them holds. -/
def caseRule (args : List Operand) (expected : Option ValueType) : Checked Typed :=
  if args.length < 3 then .fail (.tooFewBranches 3 args.length)
  else if args.length % 2 = 0 then .fail .countNotOdd
  else do
    let (branches, otherwise) ← caseBranches expected args
    return ⟨.case branches otherwise.expr, otherwise.type⟩

/-! ## Choice by labels -/

/-- The value of a label: a number, a string or a truth value. -/
def labelValue? : Json → Option Value
  | .null | .array _ | .object _ => none
  | scalar => some (.ofJson scalar)

/-- The values of the labels of one branch, none of which may be among those `seen`. -/
def labelValues (seen : List Value) : List Json → Except CompileError.Cause (List Value)
  | [] => .ok []
  | label :: rest =>
    match labelValue? label with
    | none => .error .labelKind
    | some value =>
      if seen.contains value then .error .labelRepeated
      else (labelValues (value :: seen) rest).map (value :: ·)

/-- The values of the labels that an argument spells: one label, or an array of some. -/
def branchLabels (seen : List Value) (o : Operand) : Checked (List Value) :=
  match o.json with
  | .array [] => o.fail .noLabel
  | .array labels => o.located ((labelValues seen labels).mapError .here)
  | label => o.located ((labelValues seen [label]).mapError .here)

/-- The labels, the outputs and the last output of `match`, given the labels `seen` before. The
first output settles the type of the others, unless a type is wanted. -/
def selectBranches (seen : List Value) (output : Option ValueType) :
    List Operand → Checked (List (List Value × Expr) × Typed)
  | [] => .fail .countNotEven
  | [last] => do
    let otherwise ← last.check output
    return ([], ⟨otherwise.expr, output.getD otherwise.type⟩)
  | label :: result :: rest => do
    let labels ← branchLabels seen label
    let typed ← result.check output
    let (branches, otherwise) ←
      selectBranches (labels ++ seen) (some (output.getD typed.type)) rest
    return ((labels, typed.expr) :: branches, otherwise)

/-- The operator `match`: an input, labels and outputs in turn, and an output for other inputs. -/
def matchRule (args : List Operand) (expected : Option ValueType) : Checked Typed :=
  if args.length < 4 then .fail (.tooFewBranches 4 args.length)
  else if args.length % 2 = 1 then .fail .countNotEven
  else match args with
    | [] => .fail .countNotEven
    | input :: rest => do
      let input ← input.checkExpr none
      let (branches, otherwise) ← selectBranches [] expected rest
      return ⟨.select input branches otherwise.expr, otherwise.type⟩

/-! ## The first value there is -/

/-- The arguments of `coalesce` and the type they share. An argument that may be of any type, or
is `null`, is left unchecked, so that `null` can give way to the next one. -/
def coalesceArgs (output : Option ValueType) :
    List Operand → Checked (List Expr × Option ValueType)
  | [] => .ok ([], output)
  | arg :: rest => do
    let typed ← arg.inferred output
    if typed.type = .value ∨ typed.type = .null then
      let (exprs, output) ← coalesceArgs output rest
      return (typed.expr :: exprs, output)
    else
      let typed ← arg.located (typed.reconcile output)
      let (exprs, output) ← coalesceArgs (some (output.getD typed.type)) rest
      return (typed.expr :: exprs, output)

/-- The operator `coalesce`. Its type is the one that is wanted, or else that of the first argument
whose type is known. -/
def coalesceRule (args : List Operand) (expected : Option ValueType) : Checked Typed :=
  if args.length < 1 then .fail (.tooFewArguments 1 args.length)
  else do
    let (exprs, output) ← coalesceArgs expected args
    return ⟨.coalesce exprs, output.getD .value⟩

end Symbology.Typing
