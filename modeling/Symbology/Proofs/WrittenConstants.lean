import Symbology.Proofs.Constancy
import Symbology.Proofs.StopFunction.Compiling

set_option autoImplicit false

/-! # Constants and literals

A constant can be written as it is or as the operand of the operator `literal`. Directly it is read
without regard to the type of the property, except that text is a color where a color is wanted; as
an expression it is checked, and what it evaluates to may give way to a default. Both forms end with
the value that the constant stands for (`read_constant_iff`, `exists_of_read_asLiteral`), so what is
accepted as an expression is the same declaration when it is written directly
(`Declaration.asLiteral_agrees`). -/

namespace Symbology

variable {spec : PropertySpec} {json : Json}

/-- The object that holds a constant as an expression. -/
def Json.asLiteral (json : Json) : Json :=
  .object [("expression", .array [.string "literal", json])]

namespace PropertySpec

theorem type_eq_color_iff : spec.type = .color ↔ spec.kind = .color := by
  unfold type
  split
  next harray => simp [harray]
  next => cases spec.kind <;> simp [PropertyKind.type]

end PropertySpec

namespace PropertyValue

/-! ## Constants as they are -/

/-- **A constant is read as what it stands for.** -/
theorem read_constant_iff (hobject : json.object? = none) {value : PropertyValue} :
    read spec json = .ok value ↔
      ∃ constant, json.Denotes spec.type constant ∧ value = .constant constant := by
  by_cases htext : spec.type = .color ∧ ∃ text, json = .string text
  · obtain ⟨hcolor, text, rfl⟩ := htext
    have hread : read spec (.string text) = ofColorText text := by
      simp [read, Shape.classify, PropertySpec.type_eq_color_iff.mp hcolor, Json.string?]
    rw [hread, ofColorText]
    constructor
    · intro h
      split at h
      next color htext => exact ⟨.color color, .color hcolor htext, (Except.ok.inj h).symm⟩
      next => contradiction
    · rintro ⟨constant, hconstant, rfl⟩
      cases hconstant with
      | color _ htext => simp [htext]
      | data plain => exact absurd (plain hcolor) (by simp [Json.string?])
  · -- all else is taken as it is
    have hread : read spec json = .ok (.constant (.ofJson json)) := by
      cases json with
      | string text =>
        have hkind : spec.kind ≠ .color :=
          fun hkind => htext ⟨PropertySpec.type_eq_color_iff.mpr hkind, text, rfl⟩
        simp [read, Shape.classify, hkind]
      | object members => contradiction
      | _ => rfl
    rw [hread]
    constructor
    · intro h
      refine ⟨_, .data (fun hcolor => ?_), (Except.ok.inj h).symm⟩
      cases json with
      | string text => exact absurd ⟨hcolor, text, rfl⟩ htext
      | _ => rfl
    · rintro ⟨constant, hconstant, rfl⟩
      cases hconstant with
      | color hcolor _ => exact absurd ⟨hcolor, _, rfl⟩ htext
      | data => rfl

/-! ## Constants as expressions -/

theorem read_asLiteral {value : PropertyValue} :
    read spec json.asLiteral = .ok value ↔
      ∃ compiled,
        PropertyExpression.compile (StopFunction.call "literal" [json]) spec {} = .ok compiled ∧
        value = .expression compiled := by
  have hread : read spec json.asLiteral =
      ofExpression spec (StopFunction.call "literal" [json]) {} := rfl
  rw [hread, ofExpression]
  split
  next compiled hcompile => simp [hcompile, eq_comm]
  next e hcompile => simp [hcompile]

/-- The expression of a constant is a leaf with the value that the constant stands for. -/
theorem exists_of_read_asLiteral {value : PropertyValue}
    (h : read spec json.asLiteral = .ok value) :
    ∃ compiled constant, value = .expression compiled ∧ json.Denotes spec.type constant ∧
      compiled.expr = .literal constant := by
  obtain ⟨compiled, hcompile, rfl⟩ := read_asLiteral.mp h
  obtain ⟨constant, hconstant, _, hexpr⟩ :=
    StopFunction.spells_literal.mp (PropertyExpression.spells_of_compile hcompile)
  exact ⟨compiled, constant, rfl, hconstant, hexpr⟩

/-- Where nothing else can go wrong, the expression of a constant is accepted if it is one of the
type of the property. -/
theorem exists_read_asLiteral (hdefault : spec.default? = none) {constant : Value}
    (hconstant : json.Denotes spec.type constant)
    (haccepts : spec.type.accepts constant.type = true) :
    ∃ value, read spec json.asLiteral = .ok value := by
  obtain ⟨typed, hcheck, hexpr⟩ :=
    StopFunction.spells_literal.mpr ⟨constant, hconstant, Or.inr haccepts, rfl⟩
  refine ⟨_, read_asLiteral.mpr ⟨_, PropertyExpression.compile_eq_ok_iff.mpr
    ⟨typed, none, hcheck, ?_, ?_, rfl⟩, rfl⟩⟩
  · rw [hexpr, PropertyExpression.allowed_eq_ok_iff]
    exact ⟨Or.inl rfl, Or.inl rfl⟩
  · have hchosen : PropertyExpression.chosenDefault spec {} = none := hdefault
    rw [hchosen]
    rfl

end PropertyValue

namespace Declaration

/-! ## Both forms -/

/-- The value depends on nothing, and its outcome is a constant. -/
def HoldsConstant (declaration : Declaration) (constant : Value) : Prop :=
  (∀ context, declaration.value.evaluate context = .ok constant) ∧
    declaration.value.isFeatureConstant = true ∧
    declaration.value.isZoomConstant = true ∧
    declaration.value.zoomCurve? = none

theorem factor_of_isZoomConstant {declaration : Declaration}
    (h : declaration.value.isZoomConstant = true) (zoom lower upper : Float) :
    declaration.factor zoom lower upper = 0 :=
  if_pos h

theorem minimum_of_read {declaration : Declaration} (h : read spec json = .ok declaration) :
    declaration.minimum = spec.minimum := by
  obtain ⟨value, _, rfl⟩ := Except.map_eq_ok_iff.mp h
  rfl

/-- What is accepted as an expression is accepted directly, and holds the same constant. -/
theorem holdsConstant_of_read_asLiteral (hnull : json ≠ .null) (hobject : json.object? = none)
    {written : Declaration} (h : read spec json.asLiteral = .ok written) :
    ∃ direct constant, read spec json = .ok direct ∧ direct.HoldsConstant constant ∧
      written.HoldsConstant constant := by
  obtain ⟨compiled, constant, hvalue, hconstant, hexpr⟩ :=
    PropertyValue.exists_of_read_asLiteral (value_of_read h)
  have hdirect := (PropertyValue.read_constant_iff hobject).mpr ⟨constant, hconstant, rfl⟩
  refine ⟨_, constant, Except.map_eq_ok_iff.mpr ⟨_, hdirect, rfl⟩,
    ⟨fun _ => rfl, rfl, rfl, rfl⟩, ?_⟩
  -- the default of the property steps in for `null` only
  have hvalueNull : constant.isNull = false := by
    have hne : constant ≠ .null := mt hconstant.eq_null_iff.mp hnull
    cases constant <;> first | rfl | contradiction
  have hevaluate : ∀ context, compiled.evaluate context = .ok constant := by
    intro context
    have heval : compiled.expr.eval context = .ok constant := by
      rw [hexpr]
      rfl
    rw [PropertyExpression.evaluate_of_eval heval, PropertyExpression.orDefault, hvalueNull]
    rfl
  unfold HoldsConstant
  rw [hvalue]
  simp only [PropertyValue.evaluate, PropertyValue.isFeatureConstant,
    PropertyValue.isZoomConstant, PropertyValue.zoomCurve?, hexpr]
  exact ⟨hevaluate, rfl, rfl, rfl⟩

/-- A color property without a default accepts a text directly exactly when it accepts it as an
expression. -/
theorem exists_read_text_iff (hkind : spec.kind = .color) (hdefault : spec.default? = none)
    (text : String) :
    (∃ direct, read spec (.string text) = .ok direct) ↔
      ∃ written, read spec (Json.string text).asLiteral = .ok written := by
  constructor
  · rintro ⟨direct, hdirect⟩
    obtain ⟨constant, hconstant, _⟩ :=
      (PropertyValue.read_constant_iff rfl).mp (value_of_read hdirect)
    have hcolor := PropertySpec.type_eq_color_iff.mpr hkind
    have haccepts : spec.type.accepts constant.type = true := by
      cases hconstant with
      | color => rw [hcolor]; rfl
      | data plain => exact absurd (plain hcolor) (by simp [Json.string?])
    obtain ⟨value, hvalue⟩ := PropertyValue.exists_read_asLiteral hdefault hconstant haccepts
    exact ⟨_, Except.map_eq_ok_iff.mpr ⟨value, hvalue, rfl⟩⟩
  · rintro ⟨written, hwritten⟩
    obtain ⟨direct, _, hdirect, _⟩ :=
      holdsConstant_of_read_asLiteral (by simp) rfl hwritten
    exact ⟨direct, hdirect⟩

/-- **A constant is the same declaration directly and as an expression.** Unless it is `null` or an
object, a constant that is accepted as an expression is accepted directly. Both declarations have
the same outcomes, depend neither on the feature nor on the zoom level, have no curve, and the
weight of the upper of two stops is zero. And a color property without a default refuses a text
directly exactly when it refuses it as an expression. -/
theorem asLiteral_agrees (spec : PropertySpec) :
    (∀ json : Json, json ≠ .null → json.object? = none →
      ∀ written, read spec json.asLiteral = .ok written →
        ∃ direct, read spec json = .ok direct ∧
          (∀ context, direct.evaluate context = written.evaluate context) ∧
          ∀ declaration ∈ [direct, written],
            declaration.value.isFeatureConstant = true ∧
            declaration.value.isZoomConstant = true ∧
            declaration.value.zoomCurve? = none ∧
            ∀ zoom lower upper, declaration.factor zoom lower upper = 0) ∧
    (spec.kind = .color → spec.default? = none → ∀ text : String,
      (∃ e, read spec (.string text) = .error e) ↔
        ∃ e, read spec (Json.string text).asLiteral = .error e) := by
  refine ⟨fun json hnull hobject written hwritten => ?_, fun hkind hdefault text => ?_⟩
  · obtain ⟨direct, constant, hdirect, hholds, hholds'⟩ :=
      holdsConstant_of_read_asLiteral hnull hobject hwritten
    refine ⟨direct, hdirect, fun context => ?_, ?_⟩
    · rw [evaluate, evaluate, hholds.1, hholds'.1, minimum_of_read hdirect,
        minimum_of_read hwritten]
    · have hconstant : ∀ {declaration : Declaration}, declaration.HoldsConstant constant →
          declaration.value.isFeatureConstant = true ∧
          declaration.value.isZoomConstant = true ∧
          declaration.value.zoomCurve? = none ∧
          ∀ zoom lower upper, declaration.factor zoom lower upper = 0 :=
        fun h => ⟨h.2.1, h.2.2.1, h.2.2.2, factor_of_isZoomConstant h.2.2.1⟩
      exact List.forall_mem_cons.mpr
        ⟨hconstant hholds, List.forall_mem_singleton.mpr (hconstant hholds')⟩
  · rw [Except.exists_error_iff, Except.exists_error_iff, exists_read_text_iff hkind hdefault]

/-- A color and a text that is none, for a property whose default is `null`. -/
theorem asLiteral_agrees_color :
    (∃ written direct,
      read { kind := .color, default := some .null } (Json.string "lime").asLiteral =
        .ok written ∧
      read { kind := .color, default := some .null } (.string "lime") = .ok direct ∧
      ∀ context, direct.evaluate context = written.evaluate context) ∧
    ∃ e, read { kind := .color, default := some .null } (Json.string "limes").asLiteral =
      .error e := by
  obtain ⟨hsame, hrefused⟩ := asLiteral_agrees { kind := .color, default := some .null }
  constructor
  · obtain ⟨written, hwritten⟩ := Except.exists_of_isOk (x := read
      { kind := .color, default := some .null } (Json.string "lime").asLiteral)
      (by decide +kernel)
    obtain ⟨direct, hdirect, heq, _⟩ := hsame (.string "lime") (by simp) rfl written hwritten
    exact ⟨written, direct, hwritten, hdirect, heq⟩
  · refine (hrefused rfl rfl "limes").mp (Except.exists_error_iff.mpr ?_)
    rintro ⟨direct, hdirect⟩
    have hisOk : (read { kind := .color, default := some .null } (.string "limes")).isOk =
        false := by decide +kernel
    rw [hdirect] at hisOk
    contradiction

end Declaration

end Symbology
