import Symbology.PropertyExpression
import Symbology.Proofs.Typing.Constants

set_option autoImplicit false

/-! # What a compiled expression is

`PropertyExpression.compile_eq_ok_iff` lists all that compiling asks for: the expression has the
type of the property, what it reads is allowed, and the default is a constant of the type. The
outcome of a compiled expression is that of its tree or the default (`evaluate_eq_ok`), and an error
is always one of the tree (`evaluate_eq_error`). -/

namespace Symbology

namespace PropertySpec

theorem type_ne_value (spec : PropertySpec) : spec.type ≠ .value := by
  unfold type
  split
  · simp
  · cases spec.kind <;> simp [PropertyKind.type]

theorem type_ne_null (spec : PropertySpec) : spec.type ≠ .null := by
  unfold type
  split
  · simp
  · cases spec.kind <;> simp [PropertyKind.type]

/-- `null` is no value of a property. -/
theorem type_not_accepts_null (spec : PropertySpec) : spec.type.accepts .null = false := by
  cases htype : spec.type with
  | null => exact absurd htype spec.type_ne_null
  | value => exact absurd htype spec.type_ne_value
  | _ => rfl

end PropertySpec

namespace PropertyExpression

variable {json : Json} {spec : PropertySpec} {options : CompileOptions}
  {compiled : PropertyExpression} {context : Context}

/-! ## Compiling -/

/-- What is read has to be allowed, and the zoom level is read only by a curve. -/
theorem allowed_eq_ok_iff {expr : Expr} :
    allowed spec expr = .ok () ↔
      (expr.isFeatureConstant = true ∨ spec.featureDependent = true) ∧
      (expr.isZoomConstant = true ∨
        spec.zoomDependent = true ∧ expr.zoomCurve?.isSome = true) := by
  unfold allowed
  cases expr.isFeatureConstant <;> cases spec.featureDependent <;> cases expr.isZoomConstant <;>
    cases spec.zoomDependent <;> cases expr.zoomCurve? <;>
      simp [Checked.fail]

/-- **Compiling succeeds exactly when its four steps do.** -/
theorem compile_eq_ok_iff :
    compile json spec options = .ok compiled ↔
      ∃ typed default, json.check (some spec.type) = .ok typed ∧
        allowed spec typed.expr = .ok () ∧
        (chosenDefault spec options).mapM (defaultValue spec.type) = .ok default ∧
        compiled = {
          expr := typed.expr
          type := typed.type
          default
          recovers := options.converted && (options.default.filter (!·.isNull)).isSome
          converted := options.converted } := by
  simp only [compile, Except.seq_eq_ok_iff, Except.pure_eq_ok_iff]
  constructor
  · rintro ⟨typed, htyped, ⟨⟩, hallowed, default, hdefault, rfl⟩
    exact ⟨typed, default, htyped, hallowed, hdefault, rfl⟩
  · rintro ⟨typed, default, htyped, hallowed, hdefault, rfl⟩
    exact ⟨typed, htyped, ⟨⟩, hallowed, default, hdefault, rfl⟩

/-- **A default is a constant of the type that is wanted.** -/
theorem defaultValue_eq_ok_iff {expected : ValueType} {json : Json} {value : Value} :
    defaultValue expected json = .ok value ↔
      json.Denotes expected value ∧ expected.accepts value.type = true := by
  simp only [defaultValue, Except.mapError_eq_ok_iff, Except.bind_eq_ok_iff,
    Typed.constantValue_eq_ok_iff]
  constructor
  · rintro ⟨constant, hconstant, h⟩
    split at h
    next haccepts =>
      obtain rfl := Except.ok.inj h
      exact ⟨hconstant, haccepts⟩
    next => contradiction
  · rintro ⟨hvalue, haccepts⟩
    exact ⟨value, hvalue, if_pos haccepts⟩

/-- The default of a compiled expression is the one that is chosen, and has the type of the
property. -/
theorem default_of_compile (h : compile json spec options = .ok compiled) :
    Option.Rel (fun chosen value =>
        chosen.Denotes spec.type value ∧ spec.type.accepts value.type = true)
      (chosenDefault spec options) compiled.default := by
  obtain ⟨typed, default, _, _, hmap, rfl⟩ := compile_eq_ok_iff.mp h
  cases hchosen : chosenDefault spec options with
  | none =>
    rw [hchosen] at hmap
    obtain rfl := Except.ok.inj (hmap : Except.ok none = _)
    exact .none
  | some chosen =>
    rw [hchosen] at hmap
    obtain ⟨value, hvalue, rfl⟩ := Except.map_eq_ok_iff.mp hmap
    exact .some (defaultValue_eq_ok_iff.mp hvalue)

theorem accepts_default (h : compile json spec options = .ok compiled) {value : Value}
    (hdefault : compiled.default = some value) : spec.type.accepts value.type = true := by
  have hrel := default_of_compile h
  rw [hdefault] at hrel
  generalize chosenDefault spec options = chosen at hrel
  cases hrel with
  | some hvalue => exact hvalue.2

theorem default_ne_null (h : compile json spec options = .ok compiled) :
    compiled.default ≠ some .null := by
  intro hdefault
  have haccepts := accepts_default h hdefault
  rw [Value.type, spec.type_not_accepts_null] at haccepts
  contradiction

/-! ## Evaluating -/

/-- The value, or the default in place of `null`. -/
def orDefault (compiled : PropertyExpression) (value : Value) : Value :=
  if value.isNull then compiled.default.getD .null else value

/-- The value of the tree is the result, other than `null`. -/
theorem evaluate_of_eval {value : Value} (h : compiled.expr.eval context = .ok value) :
    compiled.evaluate context = .ok (compiled.orDefault value) := by
  unfold evaluate orDefault
  rw [h]
  cases value <;> rfl

/-- What stands for the value of the tree stands for the result, and the chosen default does in
place of `null`. -/
theorem denotes_orDefault (h : compile json spec options = .ok compiled) {output : Json}
    {value : Value} (hvalue : output.Denotes spec.type value) :
    ((if output.isNull then chosenDefault spec options else some output).getD .null).Denotes
      spec.type (compiled.orDefault value) := by
  by_cases hnull : value = .null
  · obtain rfl := hvalue.eq_null_iff.mp hnull
    subst hnull
    have hdefault := default_of_compile h
    rw [orDefault]
    simp only [Json.isNull, Value.isNull, if_true]
    generalize chosenDefault spec options = chosen at hdefault ⊢
    generalize compiled.default = default at hdefault ⊢
    cases hdefault with
    | none => exact Json.denotes_null
    | some hdenotes => exact hdenotes.1
  · have hfilled : output ≠ .null := mt hvalue.eq_null_iff.mpr hnull
    have hvalueNull : value.isNull = false := by cases value <;> first | rfl | contradiction
    have houtputNull : output.isNull = false := by cases output <;> first | rfl | contradiction
    simpa [orDefault, hvalueNull, houtputNull] using hvalue

/-- A result is the default, or the value of the tree; the tree's `null` stays only where there is
no default. -/
theorem evaluate_eq_ok {value : Value} (h : compiled.evaluate context = .ok value) :
    compiled.default = some value ∨
      compiled.expr.eval context = .ok value ∧ (value = .null → compiled.default = none) := by
  unfold evaluate at h
  split at h
  next heval =>
    -- `null` gives way to the default
    cases hdefault : compiled.default with
    | none =>
      rw [hdefault] at h
      obtain rfl := Except.ok.inj h
      exact Or.inr ⟨heval, fun _ => rfl⟩
    | some default =>
      rw [hdefault] at h
      exact Or.inl (congrArg some (Except.ok.inj h))
  next value' hne heval =>
    obtain rfl := Except.ok.inj h
    refine Or.inr ⟨heval, ?_⟩
    rintro rfl
    exact absurd rfl hne
  next e heval =>
    -- an error gives way to the default only if the expression recovers
    split at h
    next default hdefault =>
      split at h
      · rw [hdefault]
        exact Or.inl (congrArg some (Except.ok.inj h))
      · contradiction
    next => contradiction

/-- An error is the error of the tree. -/
theorem evaluate_eq_error {e : EvalError} (h : compiled.evaluate context = .error e) :
    compiled.expr.eval context = .error e := by
  unfold evaluate at h
  split at h
  · contradiction
  · contradiction
  next e' heval =>
    rw [heval]
    split at h
    · split at h
      · contradiction
      · exact h
    · exact h

/-- The outcome of a compiled expression depends on the context only through its tree. -/
theorem evaluate_congr {c₁ c₂ : Context}
    (h : compiled.expr.eval c₁ = compiled.expr.eval c₂) :
    compiled.evaluate c₁ = compiled.evaluate c₂ := by
  simp only [evaluate, h]

end PropertyExpression

end Symbology
