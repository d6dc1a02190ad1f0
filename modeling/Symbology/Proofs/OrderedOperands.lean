import Symbology.Proofs.Typing.Wanted

set_option autoImplicit false

/-! # The operands of a comparison by order

A comparison by order says the same as the flipped one, `a < b` as `b > a`, but not both have to
pass the check: the left operand is checked first, where no type is wanted, and its type is the one
that is wanted of the right operand (`Ordered.exists_check_written_iff`). `OneSided` lists the ways
in which only one of the two passes; apart from these the operands are checked alike
(`Ordered.alike_iff`). -/

namespace Symbology

open Typing

/-! ## Types of operands -/

namespace Json

/-- The type that the expression has where none is wanted. -/
def OwnType (json : Json) (type : ValueType) : Prop :=
  ∃ typed, json.check none = .ok typed ∧ typed.type = type

/-- The expression passes the check where the type is wanted. -/
def Passes (json : Json) (type : ValueType) : Prop :=
  ∃ typed, json.check (some type) = .ok typed

variable {json : Json} {type own : ValueType}

theorem ownType_iff :
    json.OwnType own ↔ ∃ typed, json.infer none = .ok typed ∧ typed.type = own := by
  have hcheck (typed : Typed) : json.check none = .ok typed ↔ json.infer none = .ok typed := by
    simp [check, Typed.reconcile]
  simp only [OwnType, hcheck]

theorem OwnType.unique (h : json.OwnType own) (h' : json.OwnType type) : own = type := by
  obtain ⟨typed, htyped, rfl⟩ := h
  obtain ⟨typed', htyped', rfl⟩ := h'
  obtain rfl := Except.ok.inj (htyped.symm.trans htyped')
  rfl

/-- What passes as a number or a string has no other type of its own. -/
theorem OwnType.of_passes (h : json.OwnType own) (hordered : type.isOrdered = true)
    (hpasses : json.Passes type) : own = .value ∨ own = .null ∨ own = type := by
  obtain ⟨typed, htyped, rfl⟩ := ownType_iff.mp h
  exact (infer_adapts json).own htyped hordered hpasses

/-- Whatever is `null` passes as a number and as a string. -/
theorem OwnType.passes_of_null (h : json.OwnType .null) (hordered : type.isOrdered = true) :
    json.Passes type := by
  obtain ⟨typed, htyped, hnull⟩ := ownType_iff.mp h
  exact (infer_adapts json).null htyped hnull hordered

end Json

/-! ## Comparisons that pass -/

/-- The comparison, as it is written. -/
def Ordered.name : Ordered → String
  | .less => "<"
  | .lessEqual => "<="
  | .greater => ">"
  | .greaterEqual => ">="

/-- The comparison of the same operands, written in the other order. -/
def Ordered.flipped : Ordered → Ordered
  | .less => .greater
  | .lessEqual => .greaterEqual
  | .greater => .less
  | .greaterEqual => .lessEqual

/-- A comparison by order, as it is written. -/
def Ordered.written (order : Ordered) (left right : Json) : Json :=
  .array [.string order.name, left, right]

/-- The operands pass in this order: the left one may have any value, or else it has an order, and
the right one passes with its type. -/
inductive Comparable (left right : Json) : Prop
  | unchecked {own : ValueType} (hleft : left.OwnType .value) (hright : right.OwnType own)
  | ordered {type : ValueType} (hordered : type.isOrdered = true) (hleft : left.OwnType type)
      (hright : right.Passes type)

theorem Typing.orderedWith_eq_ok_iff {type : ValueType} {wanted : Option ValueType} :
    orderedWith type = .ok wanted ↔
      type.isOrdered = true ∧ wanted = some type ∨ type = .value ∧ wanted = none := by
  cases type <;> simp [orderedWith, ValueType.isOrdered, eq_comm]

theorem Ordered.infer_written (order : Ordered) (left right : Json)
    (expected : Option ValueType) :
    (order.written left right).infer expected =
      orderRule order [⟨1, left, left.infer⟩, ⟨2, right, right.infer⟩] expected := by
  cases order <;> rfl

/-- What is inferred to be a comparison is a truth value, and its operands pass. -/
theorem Ordered.exists_infer_written_iff (order : Ordered) (left right : Json)
    (expected : Option ValueType) (type : ValueType) :
    (∃ typed, (order.written left right).infer expected = .ok typed ∧ typed.type = type) ↔
      type = .boolean ∧ Comparable left right := by
  simp only [order.infer_written, orderRule, Operand.checkExpr, Operand.check,
    Except.seq_eq_ok_iff, Except.pure_eq_ok_iff, Except.map_eq_ok_iff, Except.mapError_eq_ok_iff,
    Operand.located_eq_ok_iff, orderedWith_eq_ok_iff]
  constructor
  · rintro ⟨_, ⟨typed, hleft, wanted, hwanted, _, ⟨fitted, hright, _⟩, rfl⟩, rfl⟩
    rcases hwanted with ⟨hordered, rfl⟩ | ⟨hvalue, rfl⟩
    · exact ⟨rfl, .ordered hordered ⟨typed, hleft, rfl⟩ ⟨fitted, hright⟩⟩
    · exact ⟨rfl, .unchecked ⟨typed, hleft, hvalue⟩ ⟨fitted, hright, rfl⟩⟩
  · rintro ⟨rfl, hcomparable⟩
    cases hcomparable with
    | unchecked hleft hright =>
      obtain ⟨typed, hleft, hvalue⟩ := hleft
      obtain ⟨fitted, hright, _⟩ := hright
      exact ⟨_, ⟨typed, hleft, none, Or.inr ⟨hvalue, rfl⟩, _, ⟨fitted, hright, rfl⟩, rfl⟩, rfl⟩
    | ordered hordered hleft hright =>
      obtain ⟨typed, hleft, rfl⟩ := hleft
      obtain ⟨fitted, hright⟩ := hright
      exact ⟨_, ⟨typed, hleft, _, Or.inl ⟨hordered, rfl⟩, _, ⟨fitted, hright, rfl⟩, rfl⟩, rfl⟩

/-- **Which comparisons pass the check.** A truth value may stand there, and the operands pass in
this order. -/
theorem Ordered.exists_check_written_iff (order : Ordered) (left right : Json)
    (expected : Option ValueType) :
    (∃ typed, (order.written left right).check expected = .ok typed) ↔
      (∀ type ∈ expected, type.accepts .boolean = true) ∧ Comparable left right := by
  have hinfer := order.exists_infer_written_iff left right expected
  simp only [Json.check, Except.bind_eq_ok_iff]
  constructor
  · rintro ⟨fitted, typed, htyped, hfitted⟩
    obtain ⟨hboolean, hcomparable⟩ := (hinfer typed.type).mp ⟨typed, htyped, rfl⟩
    refine ⟨?_, hcomparable⟩
    rintro type rfl
    simpa [hboolean] using Typed.exists_reconcile_iff.mp ⟨fitted, hfitted⟩
  · rintro ⟨haccepts, hcomparable⟩
    obtain ⟨typed, htyped, hboolean⟩ := (hinfer .boolean).mpr ⟨rfl, hcomparable⟩
    cases expected with
    | none => exact ⟨typed, typed, htyped, rfl⟩
    | some type =>
      have haccepts : type.accepts typed.type = true := hboolean ▸ haccepts type rfl
      obtain ⟨fitted, hfitted⟩ := Typed.exists_reconcile_iff.mpr (Or.inl haccepts)
      exact ⟨fitted, typed, htyped, hfitted⟩

/-! ## Flipped comparisons -/

/-- **Operands that pass in this order only.** -/
inductive OneSided (left right : Json) : Prop
  /-- Beside a left operand of any value the right one is not asked for an order, as in
  `["<", ["get", "x"], true]`. -/
  | unchecked {own : ValueType} (hleft : left.OwnType .value) (hright : right.OwnType own)
      (hvalue : own ≠ .value) (hunordered : own.isOrdered = false)
  /-- On the right `null` passes as a number or a string, as in `["<", 1, null]`. -/
  | null {type : ValueType} (hordered : type.isOrdered = true) (hleft : left.OwnType type)
      (hright : right.OwnType .null)
  /-- The right operand passes as a number or a string but has no type where none is wanted, as in
  `["<", 1, ["case", true, null, 2]]`. -/
  | untyped {type : ValueType} (hordered : type.isOrdered = true) (hleft : left.OwnType type)
      (hright : right.Passes type) (hnone : ¬∃ own, right.OwnType own)
  /-- The left operand has a type where none is wanted but does not pass with that of the right one,
  as in `["<", ["case", true, ["get", "x"], true], "b"]`. -/
  | unfit {type : ValueType} (hordered : type.isOrdered = true)
      (hleft : left.OwnType .value ∨ left.OwnType type ∧ right.Passes type)
      (hright : right.OwnType type) (hfails : ¬left.Passes type)

theorem oneSided_iff {left right : Json} :
    OneSided left right ↔ Comparable left right ∧ ¬Comparable right left := by
  constructor
  · intro h
    cases h with
    | unchecked hleft hright hvalue hunordered =>
      refine ⟨.unchecked hleft hright, fun hflipped => ?_⟩
      cases hflipped with
      | unchecked hright' => exact hvalue (hright.unique hright')
      | ordered hordered hright' =>
        rw [hright.unique hright', hordered] at hunordered
        contradiction
    | null hordered hleft hright =>
      refine ⟨.ordered hordered hleft (hright.passes_of_null hordered), fun hflipped => ?_⟩
      cases hflipped with
      | unchecked hright' => exact absurd (hright.unique hright') (by simp)
      | ordered hordered' hright' =>
        rw [← hright.unique hright'] at hordered'
        contradiction
    | untyped hordered hleft hright hnone =>
      refine ⟨.ordered hordered hleft hright, fun hflipped => hnone ?_⟩
      cases hflipped with
      | unchecked hright' => exact ⟨_, hright'⟩
      | ordered _ hright' => exact ⟨_, hright'⟩
    | unfit hordered hleft hright hfails =>
      refine ⟨?_, fun hflipped => ?_⟩
      · rcases hleft with hleft | ⟨hleft, hpasses⟩
        · exact .unchecked hleft hright
        · exact .ordered hordered hleft hpasses
      · cases hflipped with
        | unchecked hright' =>
          rw [hright.unique hright'] at hordered
          contradiction
        | ordered _ hright' hleft' =>
          rw [← hright.unique hright'] at hleft'
          exact hfails hleft'
  · rintro ⟨hcomparable, hflipped⟩
    cases hcomparable with
    | @unchecked own hleft hright =>
      have hvalue : own ≠ .value := by
        rintro rfl
        exact hflipped (.unchecked hright hleft)
      cases hordered : own.isOrdered with
      | false => exact .unchecked hleft hright hvalue hordered
      | true =>
        exact .unfit hordered (Or.inl hleft) hright (fun hpasses =>
          hflipped (.ordered hordered hright hpasses))
    | @ordered type hordered hleft hright =>
      by_cases hown : ∃ own, right.OwnType own
      · obtain ⟨own, hown⟩ := hown
        rcases hown.of_passes hordered hright with rfl | rfl | rfl
        · exact absurd (.unchecked hown hleft) hflipped
        · exact .null hordered hleft hown
        · exact .unfit hordered (Or.inr ⟨hleft, hright⟩) hown (fun hpasses =>
            hflipped (.ordered hordered hown hpasses))
      · exact .untyped hordered hleft hright hown

/-- The comparison passes the check exactly where the flipped one does. -/
def Ordered.Alike (order : Ordered) (left right : Json) : Prop :=
  ∀ expected, (∃ typed, (order.written left right).check expected = .ok typed) ↔
    ∃ typed, (order.flipped.written right left).check expected = .ok typed

/-- **When the operands of a comparison by order are checked alike**: unless they pass in one order
only. -/
theorem Ordered.alike_iff (order : Ordered) (left right : Json) :
    order.Alike left right ↔ ¬OneSided left right ∧ ¬OneSided right left := by
  simp only [Ordered.Alike, exists_check_written_iff, oneSided_iff, not_and, not_not]
  constructor
  · intro halike
    have hboth := halike none
    simp only [Option.not_mem_none, false_imp_iff, implies_true, true_and] at hboth
    exact ⟨hboth.mp, hboth.mpr⟩
  · rintro ⟨hflipped, hunflipped⟩ expected
    exact and_congr_right fun _ => ⟨hflipped, hunflipped⟩

/-- The third way: the second output passes as text, but not as `null`. -/
example :
    let right : Json := .array [.string "case", .bool true, .null, .string "b"]
    ((Ordered.less.written (.string "a") right).check none).isOk = true ∧
      ((Ordered.greater.written right (.string "a")).check none).isOk = false := by
  decide

/-- The fourth way: the second output passes as any value, but not as text. -/
example :
    let left : Json :=
      .array [.string "case", .bool true, .array [.string "get", .string "x"], .bool true]
    ((Ordered.less.written left (.string "b")).check none).isOk = true ∧
      ((Ordered.greater.written (.string "b") left).check none).isOk = false := by
  decide

/-- Not all are: beside an operand of any value a truth value passes on the right only. -/
theorem Ordered.not_alike : ¬∀ (order : Ordered) (left right : Json), order.Alike left right := by
  intro h
  have halike := h .less (.array [.string "get", .string "x"]) (.bool true) none
  obtain ⟨_, hflipped⟩ := halike.mp ⟨_, rfl⟩
  contradiction

end Symbology
