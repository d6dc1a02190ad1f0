import Symbology.Proofs.PropertyExpression
import Symbology.Proofs.Typing.Soundness

set_option autoImplicit false

/-! # Results of compiled expressions have the type of the property

A compiled expression without `coalesce` yields `null` or a value of the property, and `null` only
if there is no default (`PropertyExpression.evaluate_holds`). With `coalesce` there are values of
other types, and it is known exactly when (`PropertyExpression.coalesce_accepted_iff`). -/

namespace Symbology.PropertyExpression

open Typing

variable {json : Json} {spec : PropertySpec} {options : CompileOptions}
  {compiled : PropertyExpression} {context : Context} {value : Value}

/-- The result of the tree is `null` or of the type of the property, unless it is unchecked. -/
theorem eval_accepted_iff (h : compile json spec options = .ok compiled)
    (heval : compiled.expr.eval context = .ok value) :
    (value = .null ∨ spec.type.accepts value.type = true) ↔
      ¬compiled.expr.Unchecked context spec.type := by
  obtain ⟨typed, default, hcheck, _, _, rfl⟩ := compile_eq_ok_iff.mp h
  exact (Json.check_derives hcheck).wellTyped_iff spec.type_ne_value spec.type_ne_null heval

/-- The result is `null` or of the type of the property, unless it is an unchecked result of the
tree. -/
theorem evaluate_accepted_iff (h : compile json spec options = .ok compiled)
    (heval : compiled.evaluate context = .ok value) :
    (value = .null ∨ spec.type.accepts value.type = true) ↔
      ¬(compiled.expr.eval context = .ok value ∧
        compiled.expr.Unchecked context spec.type) := by
  constructor
  · rintro haccepted ⟨htree, hunchecked⟩
    exact (eval_accepted_iff h htree).mp haccepted hunchecked
  · intro hchecked
    rcases evaluate_eq_ok heval with hdefault | ⟨htree, _⟩
    · exact Or.inr (accepts_default h hdefault)
    · exact (eval_accepted_iff h htree).mpr (fun hunchecked => hchecked ⟨htree, hunchecked⟩)

/-! ## Without `coalesce` -/

/-- **Type safety.** If a compiled expression has no `coalesce`, each of its results is `null` or
belongs to the type of the property, and `null` is a result only if there is no default. -/
theorem evaluate_holds (h : compile json spec options = .ok compiled)
    (hcoalesce : ∀ node ∈ compiled.expr.nodes, node.isCoalesce = false)
    (heval : compiled.evaluate context = .ok value) :
    (value = .null ∨ spec.type.Holds value) ∧ (value = .null → compiled.default = none) := by
  constructor
  · have hchecked : ¬compiled.expr.Unchecked context spec.type :=
      Expr.not_unchecked_of_no_coalesce hcoalesce
    have haccepted := (evaluate_accepted_iff h heval).mpr (fun hunchecked => hchecked hunchecked.2)
    exact haccepted.imp_right ValueType.holds_of_accepts
  · rintro rfl
    rcases evaluate_eq_ok heval with hdefault | ⟨_, hnone⟩
    · exact absurd hdefault (default_ne_null h)
    · exact hnone rfl

/-- The property of a feature, asserted to be a number. -/
theorem evaluate_holds_get :
    ∃ compiled, compile (.array [.string "get", .string "width"]) { kind := .number } {} =
        .ok compiled ∧
      compiled.evaluate { feature := some { properties := [("width", .number 3)] } } =
        .ok (.number 3) ∧
      ((Value.number 3 = .null ∨ ValueType.number.Holds (.number 3)) ∧
        (Value.number 3 = .null → compiled.default = none)) := by
  have hcompile : compile (.array [.string "get", .string "width"]) { kind := .number } {} =
      .ok ⟨.assertion .number [.get (.literal (.string "width"))], .number, none, false, false⟩ :=
    rfl
  have heval : evaluate
      ⟨.assertion .number [.get (.literal (.string "width"))], .number, none, false, false⟩
      { feature := some { properties := [("width", .number 3)] } } = .ok (.number 3) := rfl
  refine ⟨_, hcompile, heval, evaluate_holds hcompile ?_ heval⟩
  simp [Expr.nodes_eq, Expr.children, Expr.isCoalesce]

/-! ## With `coalesce` -/

/-- The checker answers a `coalesce` as it is: no check is put around it. -/
theorem check_coalesce {args : List Json} {wanted : ValueType} {typed : Typed}
    (h : (Json.array (.string "coalesce" :: args)).check (some wanted) = .ok typed) :
    ∃ exprs, typed.expr = .coalesce exprs := by
  obtain ⟨inferred, hinfer, hfits⟩ := Except.bind_eq_ok_iff.mp h
  have hrule : coalesceRule (Json.operands 1 args) (some wanted) = .ok inferred := hinfer
  unfold coalesceRule at hrule
  split at hrule
  · contradiction
  next =>
    simp only [Except.seq_eq_ok_iff, Except.pure_eq_ok_iff] at hrule
    obtain ⟨⟨exprs, shared⟩, hexprs, rfl⟩ := hrule
    obtain ⟨_, _, _, hshared, _⟩ := coalesceArgs_derives (Json.operands_sound args) hexprs
    -- the arguments share the type that is wanted, so fitting changes nothing
    have htype : wanted = shared.getD .value := hshared
    refine ⟨exprs, ?_⟩
    rw [Typed.reconcile, ← htype, if_pos wanted.accepts_refl] at hfits
    obtain rfl := Except.ok.inj hfits
    rfl

/-- **When `coalesce` respects the type that is wanted.** A result of a compiled `coalesce` is
`null` or of the type of the property unless it is unchecked: the tree found it by passing on, from
the first argument that is not `null`, what a `get` or `id` took from the feature. -/
theorem coalesce_accepted_iff {args : List Json}
    (h : compile (.array (.string "coalesce" :: args)) spec options = .ok compiled)
    (heval : compiled.evaluate context = .ok value) :
    (∃ exprs, compiled.expr = .coalesce exprs) ∧
      ((value = .null ∨ spec.type.accepts value.type = true) ↔
        ¬(compiled.expr.eval context = .ok value ∧
          compiled.expr.Unchecked context spec.type)) := by
  refine ⟨?_, evaluate_accepted_iff h heval⟩
  obtain ⟨typed, default, hcheck, _, _, rfl⟩ := compile_eq_ok_iff.mp h
  exact check_coalesce hcheck

/-- The text of a color is passed on unchecked where a color is wanted. -/
theorem coalesce_accepted_iff_text :
    ∃ compiled, compile (.array [.string "coalesce", .array [.string "get", .string "fill"]])
        { kind := .color } {} = .ok compiled ∧
      compiled.expr.Unchecked { feature := some { properties := [("fill", .string "red")] } }
        .color := by
  have hcompile : compile (.array [.string "coalesce", .array [.string "get", .string "fill"]])
      { kind := .color } {} =
        .ok ⟨.coalesce [.get (.literal (.string "fill"))], .color, none, false, false⟩ := rfl
  have heval : evaluate ⟨.coalesce [.get (.literal (.string "fill"))], .color, none, false, false⟩
      { feature := some { properties := [("fill", .string "red")] } } = .ok (.string "red") := rfl
  have hrefused : ¬(Value.string "red" = .null ∨
      ValueType.color.accepts (Value.string "red").type = true) := by
    simp [Value.type, ValueType.accepts]
  refine ⟨_, hcompile, ?_⟩
  have hiff := (coalesce_accepted_iff hcompile heval).2
  exact (not_not.mp (fun hchecked => hrefused (hiff.mpr hchecked))).2

/-- So not every result of `coalesce` is `null` or of the type of the property. -/
theorem not_coalesce_accepted :
    ¬∀ (args : List Json) (spec : PropertySpec) (options : CompileOptions)
      (compiled : PropertyExpression) (context : Context) (value : Value),
      compile (.array (.string "coalesce" :: args)) spec options = .ok compiled →
        compiled.evaluate context = .ok value →
          value = .null ∨ spec.type.accepts value.type = true := by
  intro h
  have hwrong := h [.array [.string "get", .string "fill"]] { kind := .color } {}
    ⟨.coalesce [.get (.literal (.string "fill"))], .color, none, false, false⟩
    { feature := some { properties := [("fill", .string "red")] } } (.string "red") rfl rfl
  simp [PropertySpec.type, PropertyKind.type, Value.type, ValueType.accepts] at hwrong

end Symbology.PropertyExpression
