import Symbology.Declaration
import Symbology.Proofs.Expr.Dependence
import Symbology.Proofs.PropertyExpression

set_option autoImplicit false

/-! # Constancy of declarations

A declaration that says it is constant in the feature, or whose property may not depend on the
feature, has one outcome for all features. The same goes for the zoom level. Both hold however the
value is written, for errors as well as for values, and after the default and the lower bound have
had their say. -/

namespace Symbology

variable {spec : PropertySpec} {json : Json}

/-! ## What is read is allowed -/

namespace PropertyValue

/-- A value is a constant, or comes from an expression that was compiled for the property. -/
theorem read_cases {value : PropertyValue} (h : read spec json = .ok value) :
    (∃ constant, value = .constant constant) ∨
      ∃ source options compiled, PropertyExpression.compile source spec options = .ok compiled ∧
        value = .expression compiled := by
  -- expressions and stop functions end in the same compiler
  have hexpression : ∀ {source options},
      ofExpression spec source options = .ok value →
        ∃ source options compiled, PropertyExpression.compile source spec options = .ok compiled ∧
          value = .expression compiled := by
    intro source options h
    unfold ofExpression at h
    split at h
    next compiled hcompiled =>
      exact ⟨source, options, compiled, hcompiled, (Except.ok.inj h).symm⟩
    next => contradiction
  unfold read at h
  split at h
  · unfold ofColorText at h
    split at h
    next color _ => exact Or.inl ⟨.color color, (Except.ok.inj h).symm⟩
    next => contradiction
  · exact Or.inl ⟨.ofJson json, (Except.ok.inj h).symm⟩
  · exact Or.inr (hexpression h)
  · unfold ofStopFunction at h
    split at h
    · exact Or.inr (hexpression h)
    · contradiction

/-- A property that may not depend on the feature has values that do not. -/
theorem isFeatureConstant_of_read {value : PropertyValue} (h : read spec json = .ok value)
    (hspec : spec.featureDependent = false) : value.isFeatureConstant = true := by
  rcases read_cases h with ⟨constant, rfl⟩ | ⟨source, options, compiled, hcompiled, rfl⟩
  · rfl
  · obtain ⟨typed, default, _, hallowed, _, rfl⟩ :=
      PropertyExpression.compile_eq_ok_iff.mp hcompiled
    rw [PropertyExpression.allowed_eq_ok_iff, hspec] at hallowed
    exact hallowed.1.resolve_right Bool.false_ne_true

/-- A property that may not depend on the zoom level has values that do not. -/
theorem isZoomConstant_of_read {value : PropertyValue} (h : read spec json = .ok value)
    (hspec : spec.zoomDependent = false) : value.isZoomConstant = true := by
  rcases read_cases h with ⟨constant, rfl⟩ | ⟨source, options, compiled, hcompiled, rfl⟩
  · rfl
  · obtain ⟨typed, default, _, hallowed, _, rfl⟩ :=
      PropertyExpression.compile_eq_ok_iff.mp hcompiled
    rw [PropertyExpression.allowed_eq_ok_iff, hspec] at hallowed
    exact hallowed.2.resolve_right (fun h => Bool.false_ne_true h.1)

/-! ## Outcomes -/

variable {c₁ c₂ : Context}

theorem evaluate_eq_of_isFeatureConstant {value : PropertyValue} (hzoom : c₁.zoom = c₂.zoom)
    (h : value.isFeatureConstant = true) : value.evaluate c₁ = value.evaluate c₂ := by
  cases value with
  | constant value => rfl
  | expression compiled =>
    exact PropertyExpression.evaluate_congr (Expr.eval_eq_of_isFeatureConstant hzoom h)

theorem evaluate_eq_of_isZoomConstant {value : PropertyValue} (hfeature : c₁.feature = c₂.feature)
    (h : value.isZoomConstant = true) : value.evaluate c₁ = value.evaluate c₂ := by
  cases value with
  | constant value => rfl
  | expression compiled =>
    exact PropertyExpression.evaluate_congr (Expr.eval_eq_of_isZoomConstant hfeature h)

end PropertyValue

namespace Declaration

/-- The value of a declaration is the value that was read. -/
theorem value_of_read {declaration : Declaration} (h : read spec json = .ok declaration) :
    PropertyValue.read spec json = .ok declaration.value := by
  obtain ⟨value, hvalue, rfl⟩ := Except.map_eq_ok_iff.mp h
  exact hvalue

/-- The lower bound is the same in all contexts. -/
theorem evaluate_congr {declaration : Declaration} {c₁ c₂ : Context}
    (h : declaration.value.evaluate c₁ = declaration.value.evaluate c₂) :
    declaration.evaluate c₁ = declaration.evaluate c₂ := by
  rw [evaluate, h, evaluate]

/-- **Constancy is what it says.** A declaration that is constant in the feature, or whose property
may not depend on it, has the same outcome for any two features, or none, at one zoom level; and one
that is constant in the zoom level, or whose property may not depend on it, has the same outcome at
any two zoom levels, or none, for one feature. -/
theorem evaluate_constant {declaration : Declaration} (h : read spec json = .ok declaration) :
    (declaration.value.isFeatureConstant = true ∨ spec.featureDependent = false →
      ∀ zoom feature feature',
        declaration.evaluate ⟨zoom, feature⟩ = declaration.evaluate ⟨zoom, feature'⟩) ∧
    (declaration.value.isZoomConstant = true ∨ spec.zoomDependent = false →
      ∀ zoom zoom' feature,
        declaration.evaluate ⟨zoom, feature⟩ = declaration.evaluate ⟨zoom', feature⟩) := by
  have hvalue := value_of_read h
  refine ⟨fun hconstant zoom feature feature' => ?_, fun hconstant zoom zoom' feature => ?_⟩
  · have hflag := hconstant.elim id (PropertyValue.isFeatureConstant_of_read hvalue)
    exact evaluate_congr (PropertyValue.evaluate_eq_of_isFeatureConstant rfl hflag)
  · have hflag := hconstant.elim id (PropertyValue.isZoomConstant_of_read hvalue)
    exact evaluate_congr (PropertyValue.evaluate_eq_of_isZoomConstant rfl hflag)

/-- A stop function over the zoom level, for a property that may not depend on the feature. -/
theorem evaluate_constant_zoom_stops :
    ∃ declaration, read { kind := .number, featureDependent := false }
        (.object [("stops", .array [
          .array [.number (.integer 0), .number (.integer 1)],
          .array [.number (.integer 10), .number (.integer 4)]])]) = .ok declaration ∧
      ∀ zoom feature feature',
        declaration.evaluate ⟨zoom, feature⟩ = declaration.evaluate ⟨zoom, feature'⟩ := by
  obtain ⟨declaration, hread⟩ := Except.exists_of_isOk (x := read
    { kind := .number, featureDependent := false }
    (.object [("stops", .array [
      .array [.number (.integer 0), .number (.integer 1)],
      .array [.number (.integer 10), .number (.integer 4)]])])) rfl
  exact ⟨declaration, hread, (evaluate_constant hread).1 (Or.inr rfl)⟩

end Declaration

end Symbology
