import Symbology.Proofs.Number.Order
import Symbology.Proofs.Value.Type
import Symbology.Typing.Infer

set_option autoImplicit false

/-! # Derivations of types

`Derives` says which expressions the checker may answer and with which type, one rule for each
operator, without regard to how they are written or in which order they are checked. A derivation
has two stages: an expression is inferred first, and then fitted to the type that is wanted. All
that the checker makes sure of is a condition of a rule: the number of arguments, the labels, and
the types that outputs share. -/

namespace Symbology.Typing

/-! ## Conditions of rules -/

/-- The operation takes so many numbers. -/
def OperandCount (operation : Arithmetic) (count : Nat) : Prop :=
  match operation with
  | .add | .multiply => 2 ≤ count
  | .subtract => count = 1 ∨ count = 2
  | .divide | .remainder | .power => count = 2

/-- The conversion takes so many values. -/
def ConvertibleCount (target : Conversion) (count : Nat) : Prop :=
  match target with
  | .number | .color => 1 ≤ count
  | .string | .boolean => count = 1

/-- The value may be a label. -/
def isLabel : Value → Bool
  | .number _ | .string _ | .bool _ => true
  | _ => false

/-- What holds of the labels of branches: every branch has one, they are numbers, strings and truth
values, and none equals a label before it. -/
structure DistinctLabels (branches : List (List Value)) : Prop where
  nonempty : ∀ labels ∈ branches, labels ≠ []
  scalar : ∀ label ∈ branches.flatten, isLabel label = true
  distinct : branches.flatten.Pairwise (fun a b => (b == a) = false)

/-- What holds of the labels of stops: they are comparable and ascend. -/
structure AscendingLabels (labels : List Float) : Prop where
  comparable : ∀ label ∈ labels, label.isNaN = false
  ascending : labels.Pairwise (· < ·)

/-! ## Rules -/

/-- How far an expression is checked. -/
inductive Stage where
  /-- It has a type. -/
  | inferred
  /-- It has the type that is wanted. -/
  | fitted
deriving DecidableEq

/-- An argument of `coalesce`: how far it was checked, the type that was wanted, and the answer. -/
structure Alternative where
  stage : Stage
  wanted : Option ValueType
  typed : Typed

open Typed (expr)

/-- **The typing rules.** `Derives stage expected typed` says that the checker may answer `typed`
where `expected` is wanted. -/
inductive Derives : Stage → Option ValueType → Typed → Prop
  | fit {expected : Option ValueType} {typed fitted : Typed}
      (typing : Derives .inferred expected typed)
      (fits : typed.reconcile expected = .ok fitted) :
      Derives .fitted expected fitted
  | constant {expected : Option ValueType} {written value : Value}
      (reads : Typed.constantValue expected written = .ok value) :
      Derives .inferred expected (Typed.literal value)
  | get {expected : Option ValueType} {key : Typed}
      (operand : Derives .fitted (some .string) key) :
      Derives .inferred expected ⟨.get key.expr, .value⟩
  | has {expected : Option ValueType} {key : Typed}
      (operand : Derives .fitted (some .string) key) :
      Derives .inferred expected ⟨.has key.expr, .boolean⟩
  | properties {expected : Option ValueType} : Derives .inferred expected ⟨.properties, .object⟩
  | id {expected : Option ValueType} : Derives .inferred expected ⟨.id, .value⟩
  | geometryType {expected : Option ValueType} :
      Derives .inferred expected ⟨.geometryType, .string⟩
  | zoom {expected : Option ValueType} : Derives .inferred expected ⟨.zoom, .number⟩
  | arithmetic {expected : Option ValueType} {operation : Arithmetic} {args : List Typed}
      (count : OperandCount operation args.length)
      (operands : ∀ arg ∈ args, Derives .fitted (some .number) arg) :
      Derives .inferred expected ⟨.arithmetic operation (args.map expr), .number⟩
  | equality {expected : Option ValueType} {relation : Comparison} {left right : Typed}
      (unordered : relation = .equal ∨ relation = .notEqual)
      (leftTyping : Derives .fitted none left) (rightTyping : Derives .fitted none right)
      (comparable : mayEqual left.type right.type = true) :
      Derives .inferred expected ⟨.comparison relation left.expr right.expr, .boolean⟩
  | order {expected wanted : Option ValueType} {order : Ordered} {left right : Typed}
      (leftTyping : Derives .fitted none left) (ordered : orderedWith left.type = .ok wanted)
      (rightTyping : Derives .fitted wanted right) :
      Derives .inferred expected ⟨.comparison (.ordered order) left.expr right.expr, .boolean⟩
  | not {expected : Option ValueType} {arg : Typed}
      (operand : Derives .fitted (some .boolean) arg) :
      Derives .inferred expected ⟨.not arg.expr, .boolean⟩
  | all {expected : Option ValueType} {args : List Typed}
      (operands : ∀ arg ∈ args, Derives .fitted (some .boolean) arg) :
      Derives .inferred expected ⟨.all (args.map expr), .boolean⟩
  | any {expected : Option ValueType} {args : List Typed}
      (operands : ∀ arg ∈ args, Derives .fitted (some .boolean) arg) :
      Derives .inferred expected ⟨.any (args.map expr), .boolean⟩
  | case {expected : Option ValueType} {condition output otherwise : Typed}
      {rest : List (Typed × Typed)}
      (conditionTyping : Derives .fitted (some .boolean) condition)
      (outputTyping : Derives .fitted expected output)
      (conditions : ∀ branch ∈ rest, Derives .fitted (some .boolean) branch.1)
      (outputs : ∀ branch ∈ rest, Derives .fitted (some (expected.getD output.type)) branch.2)
      (otherwiseTyping : Derives .fitted (some (expected.getD output.type)) otherwise) :
      Derives .inferred expected
        ⟨.case ((condition.expr, output.expr) :: rest.map (Prod.map expr expr)) otherwise.expr,
          expected.getD output.type⟩
  | select {expected : Option ValueType} {input output otherwise : Typed} {labels : List Value}
      {rest : List (List Value × Typed)}
      (inputTyping : Derives .fitted none input)
      (distinct : DistinctLabels (labels :: rest.map (·.1)))
      (outputTyping : Derives .fitted expected output)
      (outputs : ∀ branch ∈ rest, Derives .fitted (some (expected.getD output.type)) branch.2)
      (otherwiseTyping : Derives .fitted (some (expected.getD output.type)) otherwise) :
      Derives .inferred expected
        ⟨.select input.expr ((labels, output.expr) :: rest.map (Prod.map id expr)) otherwise.expr,
          expected.getD output.type⟩
  | coalesce {expected : Option ValueType} {type : ValueType} {args : List Alternative}
      (nonempty : args ≠ []) (shared : expected.getD type = type)
      (wanted : ∀ arg ∈ args, arg.wanted = expected ∨ arg.wanted = some type)
      (loose : ∀ arg ∈ args, arg.stage = .inferred →
        arg.typed.type = .value ∨ arg.typed.type = .null)
      (typing : ∀ arg ∈ args, Derives arg.stage arg.wanted arg.typed) :
      Derives .inferred expected ⟨.coalesce (args.map (fun arg => arg.typed.expr)), type⟩
  | assertion {expected : Option ValueType} {target : ValueType} {args : List Typed}
      (definite : target ≠ .value) (nonempty : args ≠ [])
      (operands : ∀ arg ∈ args, Derives .fitted none arg) :
      Derives .inferred expected ⟨.assertion target (args.map expr), target⟩
  | conversion {expected : Option ValueType} {target : Conversion} {args : List Typed}
      (count : ConvertibleCount target args.length)
      (operands : ∀ arg ∈ args, Derives .fitted none arg) :
      Derives .inferred expected ⟨.conversion target (args.map expr), target.type⟩
  | rgba {expected : Option ValueType} {args : List Typed}
      (count : args.length = 3 ∨ args.length = 4)
      (operands : ∀ arg ∈ args, Derives .fitted (some .number) arg) :
      Derives .inferred expected ⟨.rgba (args.map expr), .color⟩
  | step {expected : Option ValueType} {input first : Typed} {stops : List (Float × Typed)}
      (inputTyping : Derives .fitted (some .number) input)
      (labels : AscendingLabels (stops.map (·.1)))
      (firstTyping : Derives .fitted expected first)
      (outputs : ∀ stop ∈ stops, Derives .fitted (some (expected.getD first.type)) stop.2) :
      Derives .inferred expected
        ⟨.step input.expr first.expr (stops.map (Prod.map id expr)), expected.getD first.type⟩
  | interpolate {expected : Option ValueType} {interpolation : Interpolation} {input first : Typed}
      {label : Float} {rest : List (Float × Typed)}
      (inputTyping : Derives .fitted (some .number) input)
      (labels : AscendingLabels (label :: rest.map (·.1)))
      (firstTyping : Derives .fitted expected first)
      (outputs : ∀ stop ∈ rest, Derives .fitted (some (expected.getD first.type)) stop.2)
      (interpolable : isInterpolable (expected.getD first.type) = true) :
      Derives .inferred expected
        ⟨.interpolate interpolation input.expr
          ((label, first.expr) :: rest.map (Prod.map id expr)), expected.getD first.type⟩

/-! ## What fitting makes sure of -/

/-- Fitting leaves an expression as it is, or puts a guard around it. -/
theorem expr_of_reconcile {expected : Option ValueType} {typed fitted : Typed}
    (h : typed.reconcile expected = .ok fitted) :
    fitted.expr = typed.expr ∨ ∃ target, fitted.expr = Typed.guard target typed.expr := by
  unfold Typed.reconcile at h
  split at h
  · obtain rfl := Except.ok.inj h
    exact Or.inl rfl
  next wanted =>
    split at h
    · obtain rfl := Except.ok.inj h
      exact Or.inl rfl
    · split at h
      · obtain rfl := Except.ok.inj h
        exact Or.inl rfl
      · split at h
        · obtain rfl := Except.ok.inj h
          exact Or.inr ⟨wanted, rfl⟩
        · contradiction

/-- A guard is only put around what may have any type. -/
theorem expr_of_reconcile_of_ne {expected : Option ValueType} {typed fitted : Typed}
    (h : typed.reconcile expected = .ok fitted) (hne : typed.type ≠ .value) :
    fitted.expr = typed.expr := by
  unfold Typed.reconcile at h
  split at h
  · obtain rfl := Except.ok.inj h
    rfl
  · rw [if_neg hne] at h
    split at h
    · obtain rfl := Except.ok.inj h
      rfl
    · split at h
      · obtain rfl := Except.ok.inj h
        rfl
      · contradiction

/-- **What is fitted has the type that is wanted.** -/
theorem accepts_of_reconcile {wanted : ValueType} {typed fitted : Typed}
    (h : typed.reconcile (some wanted) = .ok fitted) : wanted.accepts fitted.type = true := by
  simp only [Typed.reconcile] at h
  split at h
  next haccepts =>
    obtain rfl := Except.ok.inj h
    exact haccepts
  next =>
    split at h
    · obtain rfl := Except.ok.inj h
      exact wanted.accepts_refl
    · split at h
      · obtain rfl := Except.ok.inj h
        exact wanted.accepts_refl
      · contradiction

theorem Derives.accepts {wanted : ValueType} {typed : Typed}
    (h : Derives .fitted (some wanted) typed) : wanted.accepts typed.type = true := by
  cases h with
  | fit _ fits => exact accepts_of_reconcile fits

end Symbology.Typing
