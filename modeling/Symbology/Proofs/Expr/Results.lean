import Symbology.Expr.Eval
import Symbology.Proofs.Value.Type

set_option autoImplicit false

/-! # Types of results

An operator that computes its result yields values of one type, whatever its arguments yield: what
it needs of them it makes sure of when it is evaluated. -/

namespace Symbology.Outcome

variable {args : List Outcome} {value : Value}

/-! ## Numbers and truth values -/

theorem type_of_arithmetic {operation : Arithmetic} (h : arithmetic operation args = .ok value) :
    value.type = .number := by
  obtain ⟨xs, _, h⟩ := Except.bind_eq_ok_iff.mp h
  split at h
  case h_8 => contradiction
  all_goals
    obtain rfl := Except.ok.inj h
    rfl

theorem type_of_comparison {relation : Comparison} {left right : Outcome}
    (h : comparison relation left right = .ok value) : value.type = .boolean := by
  simp only [comparison, Except.bind_eq_ok_iff, Except.map_eq_ok_iff] at h
  obtain ⟨l, _, r, _, b, _, rfl⟩ := h
  rfl

theorem type_of_not {arg : Outcome} (h : Outcome.not arg = .ok value) : value.type = .boolean := by
  obtain ⟨b, _, rfl⟩ := Except.map_eq_ok_iff.mp h
  rfl

theorem type_of_all (h : all args = .ok value) : value.type = .boolean := by
  induction args with
  | nil =>
    obtain rfl := Except.ok.inj h
    rfl
  | cons arg rest ih =>
    obtain ⟨b, _, h⟩ := Except.bind_eq_ok_iff.mp h
    split at h
    · exact ih h
    · obtain rfl := Except.ok.inj h
      rfl

theorem type_of_any (h : any args = .ok value) : value.type = .boolean := by
  induction args with
  | nil =>
    obtain rfl := Except.ok.inj h
    rfl
  | cons arg rest ih =>
    obtain ⟨b, _, h⟩ := Except.bind_eq_ok_iff.mp h
    split at h
    · obtain rfl := Except.ok.inj h
      rfl
    · exact ih h

/-! ## Assertions and conversions -/

/-- What an assertion lets pass has the type. -/
theorem accepts_of_assertion {target last : ValueType}
    (h : assertion target last args = .ok value) : target.accepts value.type = true := by
  induction args generalizing last with
  | nil => contradiction
  | cons arg rest ih =>
    obtain ⟨v, _, h⟩ := Except.bind_eq_ok_iff.mp h
    split at h
    next haccepts =>
      obtain rfl := Except.ok.inj h
      exact haccepts
    next => exact ih h

/-- What is converted is the conversion of some value. -/
theorem exists_of_firstConverted {convert? : Value → Option Value} {failure : Value → EvalError}
    {last : Value} (h : firstConverted convert? failure last args = .ok value) :
    ∃ original, convert? original = some value := by
  induction args generalizing last with
  | nil => contradiction
  | cons arg rest ih =>
    obtain ⟨v, _, h⟩ := Except.bind_eq_ok_iff.mp h
    split at h
    next converted hconverted =>
      obtain rfl := Except.ok.inj h
      exact ⟨v, hconverted⟩
    next => exact ih h

theorem type_of_conversion {target : Conversion} (h : conversion target args = .ok value) :
    value.type = target.type := by
  cases target with
  | number =>
    obtain ⟨original, hvalue⟩ := exists_of_firstConverted h
    obtain ⟨x, _, rfl⟩ := Option.map_eq_some_iff.mp hvalue
    rfl
  | color =>
    obtain ⟨original, hvalue⟩ := exists_of_firstConverted h
    obtain ⟨c, _, rfl⟩ := Option.map_eq_some_iff.mp hvalue
    rfl
  | string =>
    obtain ⟨original, _, rfl⟩ := Except.map_eq_ok_iff.mp h
    rfl
  | boolean =>
    obtain ⟨original, _, rfl⟩ := Except.map_eq_ok_iff.mp h
    rfl

theorem type_of_rgba (h : rgba args = .ok value) : value.type = .color := by
  simp only [rgba, Except.bind_eq_ok_iff, Except.map_eq_ok_iff] at h
  obtain ⟨channels, _, c, _, rfl⟩ := h
  rfl

end Symbology.Outcome

namespace Symbology.Context

/-! ## What a context answers -/

theorem type_of_geometryValue (context : Context) :
    context.geometryValue = .null ∨ context.geometryValue.type = .string := by
  unfold geometryValue
  cases context.feature.bind Feature.geometryType with
  | none => exact Or.inl rfl
  | some kind => exact Or.inr rfl

theorem type_of_zoomOutcome {context : Context} {value : Value}
    (h : context.zoomOutcome = .ok value) : value.type = .number := by
  unfold zoomOutcome at h
  split at h
  · obtain rfl := Except.ok.inj h
    rfl
  · contradiction

end Symbology.Context
