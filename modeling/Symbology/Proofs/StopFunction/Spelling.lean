import Symbology.Proofs.Typing.Constants
import Symbology.Proofs.Typing.Inference
import Symbology.StopFunction.Expression

set_option autoImplicit false

/-! # What the expressions of stop functions spell

`Json.Spells` says which expression a JSON value spells where a type is wanted. Each form that a
stop function is written with has one lemma that says all about it: a constant, the property of a
feature, a curve and a choice by labels. Quoting an output makes a constant of it, whatever it is
(`spells_quoted`). -/

namespace Symbology

open Typing

/-- Where a value of the type is wanted, the JSON value spells the expression. -/
def Json.Spells (json : Json) (type : ValueType) (expr : Expr) : Prop :=
  ∃ typed, json.check (some type) = .ok typed ∧ typed.expr = expr

variable {type : ValueType} {expr : Expr}

/-! ## Fitting -/

/-- Where the type that is inferred is always the one that is wanted, nothing is left to fit. -/
theorem Json.check_eq_infer {json : Json}
    (h : ∀ typed, json.infer (some type) = .ok typed → typed.type = type) :
    json.check (some type) = json.infer (some type) := by
  cases hinfer : json.infer (some type) with
  | error e => simp [check, hinfer, Except.bind]
  | ok typed =>
    have htype : typed.type = type := h typed hinfer
    simp [check, hinfer, Except.bind, Typed.reconcile, htype]

/-- What is inferred to have the type that is wanted is spelled as it is. -/
theorem Json.spells_iff_of_infer {json : Json} {P : Expr → Prop}
    (h : ∀ typed, json.infer (some type) = .ok typed ↔ ∃ expr, P expr ∧ typed = ⟨expr, type⟩) :
    json.Spells type expr ↔ P expr := by
  have htype : ∀ typed, json.infer (some type) = .ok typed → typed.type = type := by
    intro typed hinfer
    obtain ⟨_, _, rfl⟩ := (h typed).mp hinfer
    rfl
  unfold Spells
  rw [check_eq_infer htype]
  constructor
  · rintro ⟨typed, hinfer, rfl⟩
    obtain ⟨_, hexpr, rfl⟩ := (h typed).mp hinfer
    exact hexpr
  · intro hexpr
    exact ⟨⟨expr, type⟩, (h _).mpr ⟨expr, hexpr, rfl⟩, rfl⟩

/-! ## Arguments -/

theorem check_operand {index : Nat} {json : Json} {expected : Option ValueType} {typed : Typed} :
    (⟨index, json, json.infer⟩ : Operand).check expected = .ok typed ↔
      json.check expected = .ok typed :=
  Operand.located_eq_ok_iff

theorem checkExpr_operand {index : Nat} {json : Json} :
    (⟨index, json, json.infer⟩ : Operand).checkExpr (some type) = .ok expr ↔
      json.Spells type expr := by
  rw [Operand.checkExpr, Except.map_eq_ok_iff]
  exact exists_congr (fun typed => and_congr_left (fun _ => check_operand))

namespace StopFunction

/-! ## Constants -/

/-- What is checked as a constant spells what the constant stands for: `null`, or a value of the
type that is wanted. -/
theorem spells_of_check_constant {json output : Json}
    (hcheck : json.check (some type) =
      (Typed.constant (some type) (.ofJson output)).bind (Typed.reconcile (some type))) :
    json.Spells type expr ↔
      ∃ value, output.Denotes type value ∧
        (value = .null ∨ type.accepts value.type = true) ∧ expr = .literal value := by
  have hfits : ∀ value, (∃ typed, (Typed.literal value).reconcile (some type) = .ok typed ∧
      typed.expr = expr) ↔
      (value = .null ∨ type.accepts value.type = true) ∧ expr = .literal value := by
    intro value
    have hvalue : value.type ≠ .value := value.type_ne_value
    unfold Typed.reconcile
    by_cases haccepts : type.accepts value.type = true
    · simp [Typed.literal, haccepts, eq_comm]
    · by_cases hnull : value = .null
      · subst hnull
        have hrefused : type.accepts .null ≠ true := haccepts
        simp [Typed.literal, Value.type, hrefused, eq_comm]
      · have htype : value.type ≠ .null := mt Value.type_eq_null_iff.mp hnull
        simp [Typed.literal, haccepts, hnull, hvalue, htype]
  unfold Json.Spells
  simp only [hcheck, Typed.constant, Except.bind_eq_ok_iff, Except.map_eq_ok_iff,
    Typed.constantValue_eq_ok_iff]
  constructor
  · rintro ⟨typed, ⟨_, ⟨value, hvalue, rfl⟩, hfit⟩, hexpr⟩
    exact ⟨value, hvalue, (hfits value).mp ⟨typed, hfit, hexpr⟩⟩
  · rintro ⟨value, hvalue, h⟩
    obtain ⟨typed, hfit, hexpr⟩ := (hfits value).mpr h
    exact ⟨typed, ⟨_, ⟨value, hvalue, rfl⟩, hfit⟩, hexpr⟩

/-- **A quoted output is a constant**, `null` or one of the type that is wanted. -/
theorem spells_quoted {output : Json} :
    (quoted output).Spells type expr ↔
      ∃ value, output.Denotes type value ∧
        (value = .null ∨ type.accepts value.type = true) ∧ expr = .literal value :=
  -- quoted or not, the output is checked as a constant
  spells_of_check_constant (by cases output <;> rfl)

/-- The operand of `literal` is a constant, `null` or one of the type that is wanted. -/
theorem spells_literal {json : Json} :
    (call "literal" [json]).Spells type expr ↔
      ∃ value, json.Denotes type value ∧
        (value = .null ∨ type.accepts value.type = true) ∧ expr = .literal value :=
  spells_of_check_constant rfl

/-- Where a value of the type is wanted, the JSON value is a constant: `null` or of that type. -/
def IsConstant (type : ValueType) (json : Json) : Prop :=
  ∃ value, json.Denotes type value ∧ (value = .null ∨ type.accepts value.type = true)

theorem isConstant_string (text : String) : IsConstant .string (.string text) :=
  ⟨.string text, .data (by simp), Or.inr rfl⟩

theorem exists_spells_quoted {type : ValueType} {output : Json} (h : IsConstant type output) :
    ∃ expr, (quoted output).Spells type expr := by
  obtain ⟨value, hvalue, hfits⟩ := h
  exact ⟨.literal value, spells_quoted.mpr ⟨value, hvalue, hfits, rfl⟩⟩

/-! ## The zoom level and the property -/

/-- The property of the feature with a fixed name. -/
def propertyExpr (name : String) : Expr :=
  .get (.literal (.string name))

theorem spells_zoomLevel : zoomLevel.Spells .number expr ↔ expr = .zoom := by
  have hcheck : zoomLevel.check (some .number) = .ok ⟨.zoom, .number⟩ := rfl
  simp [Json.Spells, hcheck, eq_comm]

theorem spells_numericProperty {name : String} :
    (call "number" [propertyOf name]).Spells .number expr ↔
      expr = Typed.guard .number (propertyExpr name) := by
  have hcheck : (call "number" [propertyOf name]).check (some .number) =
      .ok ⟨.assertion .number [propertyExpr name], .number⟩ := rfl
  simp [Json.Spells, hcheck, Typed.guard, eq_comm]

/-- **An identity function is the property**, with a guard for the type of the style property. -/
theorem spells_identity {name : String} {spec : PropertySpec} :
    (identityExpression name spec.kind).Spells spec.type expr ↔
      expr = Typed.guard spec.type (propertyExpr name) := by
  obtain ⟨kind, minimum, default, blending, zoomDependent, featureDependent, item, length⟩ := spec
  have hcheck : ∃ typed, (identityExpression name kind).check
      (some (PropertySpec.type ⟨kind, minimum, default, blending, zoomDependent, featureDependent,
        item, length⟩)) = .ok typed ∧
      typed.expr = Typed.guard (PropertySpec.type ⟨kind, minimum, default, blending, zoomDependent,
        featureDependent, item, length⟩) (propertyExpr name) := by
    cases kind <;> exact ⟨_, rfl, rfl⟩
  obtain ⟨typed, hcheck, hexpr⟩ := hcheck
  simp [Json.Spells, hcheck, hexpr, eq_comm]

/-! ## Stops -/

/-- The labels of the expression are those of the stops, and its outputs are spelled by theirs. -/
def SpellStops (type : ValueType) (stops : List (Json.Number × Json))
    (found : List (Float × Expr)) : Prop :=
  List.Forall₂ (fun stop at' => at'.1 = stop.1.toFloat ∧ stop.2.Spells type at'.2) stops found

theorem SpellStops.labels {stops : List (Json.Number × Json)} {found : List (Float × Expr)}
    (h : SpellStops type stops found) : found.map (·.1) = stops.map (·.1.toFloat) := by
  induction h with
  | nil => rfl
  | cons hstop _ ih => rw [List.map_cons, List.map_cons, ih, hstop.1]

/-- A label is any number above the label before it. -/
theorem stopLabel_eq_ok_iff {operator : StopOperator} {previous : Option Float} {index : Nat}
    {n : Json.Number} {infer : Option ValueType → Checked Typed} {label : Float}
    (hprevious : ∀ p ∈ previous, p.isNaN = false) :
    stopLabel operator previous ⟨index, .number n, infer⟩ = .ok label ↔
      (∀ p ∈ previous, p < n.toFloat) ∧ label = n.toFloat := by
  have hnan : n.toFloat.isNaN = false := n.toFloat_isNaN
  simp only [stopLabel, Json.number?]
  cases previous with
  | none => simp [eq_comm]
  | some p =>
    have hp : p.isNaN = false := hprevious p rfl
    by_cases hle : n.toFloat ≤ p
    · have hnot : ¬p < n.toFloat := fun hlt => Number.not_le_of_lt hlt hle
      simp [hle, hnot, Operand.fail]
    · have hlt : p < n.toFloat := Number.lt_of_not_le hp hnan hle
      simp [hle, hlt, eq_comm]

/-- **Stops spell a curve exactly when the labels ascend and all outputs are spelled.** -/
theorem checkStops_eq_ok_iff {operator : StopOperator} {previous : Option Float} {index : Nat}
    {stops : List (Json.Number × Json)} {found : List (Float × Expr)}
    {shared : Option ValueType} (hprevious : ∀ p ∈ previous, p.isNaN = false) :
    Typing.stops operator previous (some type) (Json.operands index
        (alternate (stops.map (fun stop => (Json.number stop.1, stop.2))))) = .ok (found, shared) ↔
      SpellStops type stops found ∧
        (previous.toList ++ stops.map (·.1.toFloat)).IsChain (· < ·) ∧ shared = some type := by
  induction stops generalizing previous index found shared with
  | nil =>
    cases previous <;> simp [Typing.stops, alternate, Json.operands, SpellStops, eq_comm]
  | cons stop rest ih =>
    obtain ⟨n, output⟩ := stop
    have hnext : ∀ p ∈ some n.toFloat, p.isNaN = false := by
      rintro p ⟨⟩
      exact n.toFloat_isNaN
    have hchain : (previous.toList ++ n.toFloat :: rest.map (·.1.toFloat)).IsChain (· < ·) ↔
        (∀ p ∈ previous, p < n.toFloat) ∧
          (n.toFloat :: rest.map (·.1.toFloat)).IsChain (· < ·) := by
      cases previous with
      | none => simp
      | some p => simp
    simp only [List.map_cons, alternate, Json.operands, Typing.stops, Except.seq_eq_ok_iff,
      Except.pure_eq_ok_iff, stopLabel_eq_ok_iff hprevious, check_operand]
    constructor
    · rintro ⟨label, ⟨hbelow, rfl⟩, typed, htyped, ⟨others, shared'⟩, hrest, h⟩
      obtain ⟨rfl, rfl⟩ := Prod.mk.inj h
      obtain ⟨hothers, hascending, hshared⟩ := (ih hnext).mp hrest
      exact ⟨.cons ⟨rfl, typed, htyped, rfl⟩ hothers, hchain.mpr ⟨hbelow, hascending⟩, hshared⟩
    · rintro ⟨hstops, hascending, rfl⟩
      obtain ⟨hbelow, hascending⟩ := hchain.mp hascending
      cases hstops with
      | @cons _ at' _ others hfirst hothers =>
        obtain ⟨label, output'⟩ := at'
        obtain ⟨rfl, typed, htyped, rfl⟩ := hfirst
        exact ⟨_, ⟨hbelow, rfl⟩, typed, htyped, ⟨others, some type⟩,
          (ih hnext).mpr ⟨hothers, hascending, rfl⟩, rfl⟩

/-! ## Curves -/

theorem length_operands (index : Nat) (jsons : List Json) :
    (Json.operands index jsons).length = jsons.length := by
  induction jsons generalizing index with
  | nil => rfl
  | cons json rest ih => rw [Json.operands, List.length_cons, List.length_cons, ih]

theorem length_alternate (stops : List (Json × Json)) :
    (alternate stops).length = 2 * stops.length := by
  induction stops with
  | nil => rfl
  | cons stop rest ih =>
    rw [alternate, List.length_cons, List.length_cons, ih, List.length_cons]
    omega

/-- How the outputs of a curve change between two stops. -/
def rate : Option Json.Number → Interpolation
  | none => .linear
  | some base => .exponential base.toFloat

/-- **A curve of intervals** spells a step without the label of its first stop. -/
theorem spells_interval {input output : Json} {n : Json.Number}
    {stops : List (Json.Number × Json)} :
    (Curve.interval.expression input ((n, output) :: stops)).Spells type expr ↔
      ∃ input' first found, input.Spells .number input' ∧ output.Spells type first ∧
        SpellStops type stops found ∧ (stops.map (·.1.toFloat)).IsChain (· < ·) ∧
        expr = .step input' first found := by
  let rest := Json.operands 3
    (alternate (stops.map (fun stop => (Json.number stop.1, stop.2))))
  have hlength : rest.length = 2 * stops.length := by
    rw [length_operands, length_alternate, List.length_map]
  -- the rule of the operator, with the number of arguments as it should be
  have hrule : (Curve.interval.expression input ((n, output) :: stops)).infer (some type) =
      stepRule (⟨1, input, input.infer⟩ :: ⟨2, output, output.infer⟩ :: rest) (some type) := rfl
  rw [stepRule, if_neg (by simp), if_neg (by simp [hlength, Nat.add_assoc])] at hrule
  apply Json.spells_iff_of_infer
  intro typed
  simp only [hrule, Except.seq_eq_ok_iff, Except.pure_eq_ok_iff, checkExpr_operand,
    check_operand, Option.getD_some]
  constructor
  · rintro ⟨input', hinput, first, hfirst, ⟨found, shared⟩, hstops, rfl⟩
    obtain ⟨hfound, hascending, _⟩ := (checkStops_eq_ok_iff (by simp)).mp hstops
    exact ⟨_, ⟨input', first.expr, found, hinput, ⟨first, hfirst, rfl⟩, hfound, hascending, rfl⟩,
      rfl⟩
  · rintro ⟨_, ⟨input', _, found, hinput, ⟨first, hfirst, rfl⟩, hfound, hascending, rfl⟩, rfl⟩
    have hstops : Typing.stops .step none (some type) rest = .ok (found, some type) :=
      (checkStops_eq_ok_iff (by simp)).mpr ⟨hfound, hascending, rfl⟩
    exact ⟨input', hinput, first, hfirst, ⟨found, some type⟩, hstops, rfl⟩

theorem not_spells_interval_nil {input : Json} :
    ¬(Curve.interval.expression input []).Spells type expr := by
  have hrule : (Curve.interval.expression input []).infer (some type) =
      .fail (.tooFewArguments 2 1) := rfl
  rintro ⟨typed, h, _⟩
  obtain ⟨inferred, hinfer, _⟩ := Except.bind_eq_ok_iff.mp h
  rw [hrule] at hinfer
  contradiction

/-- What an interpolation spells: its kind and its input are read, and so are its stops. -/
theorem interpolate_of_check {kind input : Json} {rest : List Json}
    {expected : Option ValueType} {typed : Typed}
    (hcheck : (call "interpolate" (kind :: input :: rest)).check expected = .ok typed) :
    ∃ interpolation input' found shared, Typing.interpolation kind = .ok interpolation ∧
      input.Spells .number input' ∧
      Typing.stops .interpolate none expected (Json.operands 3 rest) = .ok (found, shared) ∧
      typed.expr = .interpolate interpolation input' found := by
  obtain ⟨inferred, hinfer, hfit⟩ := Except.bind_eq_ok_iff.mp hcheck
  have hrule : (call "interpolate" (kind :: input :: rest)).infer expected =
      interpolateRule (⟨1, kind, kind.infer⟩ :: ⟨2, input, input.infer⟩ ::
        Json.operands 3 rest) expected := rfl
  rw [hrule, interpolateRule] at hinfer
  split at hinfer
  · contradiction
  · split at hinfer
    · contradiction
    · simp only [Except.seq_eq_ok_iff, checkExpr_operand, Operand.located_eq_ok_iff,
        Except.mapError_eq_ok_iff] at hinfer
      obtain ⟨interpolation, hkind, input', hinput, ⟨found, shared⟩, hstops, h⟩ := hinfer
      refine ⟨interpolation, input', found, shared, hkind, hinput, hstops, ?_⟩
      split at h
      next hinterpolable =>
        obtain rfl := Except.pure_eq_ok_iff.mp h
        refine expr_of_reconcile_of_ne hfit ?_
        rintro (hvalue : shared.getD .value = .value)
        dsimp only at hinterpolable
        rw [hvalue] at hinterpolable
        contradiction
      · contradiction

/-- **An interpolation** has a kind that is known, and outputs of a type that can be blended. -/
theorem spells_interpolate {kind input : Json} {stops : List (Json.Number × Json)} :
    (call "interpolate" (kind :: input ::
        alternate (stops.map (fun stop => (Json.number stop.1, stop.2))))).Spells type expr ↔
      stops ≠ [] ∧ isInterpolable type = true ∧
        ∃ kind' input' found, Typing.interpolation kind = .ok kind' ∧
          input.Spells .number input' ∧ SpellStops type stops found ∧
          (stops.map (·.1.toFloat)).IsChain (· < ·) ∧ expr = .interpolate kind' input' found := by
  let rest := Json.operands 3
    (alternate (stops.map (fun stop => (Json.number stop.1, stop.2))))
  have hlength : rest.length = 2 * stops.length := by
    rw [length_operands, length_alternate, List.length_map]
  have hrule : (call "interpolate" (kind :: input ::
        alternate (stops.map (fun stop => (Json.number stop.1, stop.2))))).infer (some type) =
      interpolateRule (⟨1, kind, kind.infer⟩ :: ⟨2, input, input.infer⟩ :: rest) (some type) := rfl
  by_cases hstops : stops = []
  · -- two arguments are too few
    subst hstops
    have hfail : (call "interpolate" (kind :: input :: alternate [])).infer (some type) =
        .fail (.tooFewArguments 4 2) := hrule
    simp [Json.Spells, Json.check, hfail, Checked.fail, Except.bind]
  · have hpos : 0 < stops.length := List.length_pos_iff.mpr hstops
    rw [interpolateRule, if_neg (by simp only [List.length_cons, hlength]; omega),
      if_neg (by simp [hlength, Nat.add_assoc])] at hrule
    apply Json.spells_iff_of_infer
    intro typed
    simp only [hrule, Except.seq_eq_ok_iff, checkExpr_operand, Operand.located_eq_ok_iff,
      Except.mapError_eq_ok_iff]
    constructor
    · rintro ⟨kind', hkind, input', hinput, ⟨found, shared⟩, hrest, h⟩
      obtain ⟨hfound, hascending, rfl⟩ := (checkStops_eq_ok_iff (by simp)).mp hrest
      by_cases hinterpolable : isInterpolable type = true
      · simp only [Option.getD_some, hinterpolable, if_true, Except.pure_eq_ok_iff] at h
        exact ⟨_, ⟨hstops, hinterpolable, kind', input', found, hkind, hinput, hfound, hascending,
          rfl⟩, h.symm⟩
      · simp [hinterpolable, Checked.fail] at h
    · rintro ⟨_, ⟨_, hinterpolable, kind', input', found, hkind, hinput, hfound, hascending, rfl⟩,
        rfl⟩
      have hrest : Typing.stops .interpolate none (some type) rest = .ok (found, some type) :=
        (checkStops_eq_ok_iff (by simp)).mpr ⟨hfound, hascending, rfl⟩
      refine ⟨kind', hkind, input', hinput, ⟨found, some type⟩, hrest, ?_⟩
      simp [hinterpolable, pure, Except.pure]

theorem interpolation_eq_rate (base : Option Json.Number) :
    Typing.interpolation (interpolation base) = .ok (rate base) := by
  cases base <;> rfl

/-- **A curve with a base** spells an interpolation between all its stops. -/
theorem spells_exponential {input : Json} {base : Option Json.Number}
    {stops : List (Json.Number × Json)} :
    ((Curve.exponential base).expression input stops).Spells type expr ↔
      stops ≠ [] ∧ isInterpolable type = true ∧
        ∃ input' found, input.Spells .number input' ∧ SpellStops type stops found ∧
          (stops.map (·.1.toFloat)).IsChain (· < ·) ∧
          expr = .interpolate (rate base) input' found := by
  refine spells_interpolate.trans ?_
  simp only [interpolation_eq_rate, Except.ok.injEq, exists_and_left, exists_eq_left']

/-! ## Choices -/

/-- The labels that the input of a stop lists: the items of an array, or the input itself. -/
def listedLabels : Json → List Json
  | .array labels => labels
  | label => [label]

/-- The branches of the expression have the labels that the stops list, and their outputs. -/
def SpellBranches (type : ValueType) (stops : List (Json × Json))
    (branches : List (List Value × Expr)) : Prop :=
  List.Forall₂ (fun stop branch =>
    (listedLabels stop.1).mapM labelValue? = some branch.1 ∧ stop.2.Spells type branch.2)
    stops branches

theorem labelValues_eq_ok {seen : List Value} {labels : List Json} {values : List Value}
    (h : labelValues seen labels = .ok values) : labels.mapM labelValue? = some values := by
  induction labels generalizing seen values with
  | nil =>
    obtain rfl := Except.ok.inj (h : Except.ok [] = _)
    rfl
  | cons label rest ih =>
    rw [labelValues] at h
    split at h
    · contradiction
    next value hvalue =>
      split at h
      · contradiction
      · obtain ⟨others, hothers, rfl⟩ := Except.map_eq_ok_iff.mp h
        simp [hvalue, ih hothers]

/-- Labels are read when none equals one before it. -/
theorem labelValues_of_distinct {seen : List Value} {labels : List Json} {values : List Value}
    (h : labels.mapM labelValue? = some values)
    (hdistinct : values.Pairwise (fun a b => (b == a) = false))
    (hfresh : ∀ value ∈ values, ∀ a ∈ seen, (value == a) = false) :
    labelValues seen labels = .ok values := by
  induction labels generalizing seen values with
  | nil =>
    obtain rfl := Option.some.inj (h : some [] = _)
    rfl
  | cons label rest ih =>
    rw [List.mapM_cons] at h
    obtain ⟨value, hvalue, h⟩ := Option.bind_eq_some_iff.mp h
    obtain ⟨others, hothers, h⟩ := Option.bind_eq_some_iff.mp h
    obtain rfl := Option.some.inj h
    obtain ⟨hvalueFresh, hothersFresh⟩ := List.forall_mem_cons.mp hfresh
    obtain ⟨hvalueDistinct, hothersDistinct⟩ := List.pairwise_cons.mp hdistinct
    have hseen : seen.contains value = false := by
      rw [List.contains_eq_any_beq, List.any_eq_false]
      exact fun a ha => Bool.not_eq_true _ ▸ hvalueFresh a ha
    have hrest : labelValues (value :: seen) rest = .ok others := by
      refine ih hothers hothersDistinct (fun other hother => ?_)
      exact List.forall_mem_cons.mpr ⟨hvalueDistinct other hother, hothersFresh other hother⟩
    rw [labelValues, hvalue]
    simp [hseen, hrest, Except.map]

/-- The labels of a branch are those that are listed, and there is one. -/
theorem branchLabels_eq_ok_iff {seen : List Value} {index : Nat} {json : Json}
    {infer : Option ValueType → Checked Typed} {values : List Value} :
    branchLabels seen ⟨index, json, infer⟩ = .ok values ↔
      values ≠ [] ∧ labelValues seen (listedLabels json) = .ok values := by
  have hlabels : ∀ label labels, (⟨index, json, infer⟩ : Operand).located
        ((labelValues seen (label :: labels)).mapError CompileError.here) = .ok values ↔
      values ≠ [] ∧ labelValues seen (label :: labels) = .ok values := by
    intro label labels
    rw [Operand.located_eq_ok_iff, Except.mapError_eq_ok_iff]
    refine ⟨fun h => ⟨?_, h⟩, And.right⟩
    rintro rfl
    simpa using (labelValues_distinct h).1
  cases json with
  | array labels =>
    cases labels with
    | nil => simp [branchLabels, listedLabels, labelValues, Operand.fail, eq_comm]
    | cons label labels => exact hlabels label labels
  | _ => exact hlabels _ []

/-- **Branches are read when their labels are distinct**, and all outputs are spelled. -/
theorem selectBranches_eq_ok_iff {seen : List Value} {index : Nat} {stops : List (Json × Json)}
    {fallback : Json} {branches : List (List Value × Expr)} {otherwise : Typed} :
    selectBranches seen (some type) (Json.operands index (alternate stops ++ [fallback])) =
        .ok (branches, otherwise) ↔
      SpellBranches type stops branches ∧ DistinctLabels (branches.map (·.1)) ∧
        (∀ value ∈ (branches.map (·.1)).flatten, ∀ a ∈ seen, (value == a) = false) ∧
        fallback.Spells type otherwise.expr ∧ otherwise.type = type := by
  induction stops generalizing seen index branches with
  | nil =>
    simp only [alternate, List.nil_append, Json.operands, selectBranches, Except.seq_eq_ok_iff,
      Except.pure_eq_ok_iff, check_operand]
    constructor
    · rintro ⟨typed, htyped, h⟩
      obtain ⟨rfl, rfl⟩ := Prod.mk.inj h
      exact ⟨.nil, ⟨by simp, by simp, by simp⟩, by simp, ⟨typed, htyped, rfl⟩, rfl⟩
    · rintro ⟨hbranches, _, _, ⟨typed, htyped, hexpr⟩, htype⟩
      cases hbranches
      exact ⟨typed, htyped, by rw [hexpr, Option.getD_some, ← htype]⟩
  | cons stop rest ih =>
    obtain ⟨label, output⟩ := stop
    simp only [alternate, List.cons_append, Json.operands, selectBranches, Except.seq_eq_ok_iff,
      Except.pure_eq_ok_iff, check_operand]
    constructor
    · rintro ⟨labels, hlabels, typed, htyped, ⟨others, otherwise'⟩, hrest, h⟩
      obtain ⟨rfl, rfl⟩ := Prod.mk.inj h
      obtain ⟨hne, hlabels⟩ := branchLabels_eq_ok_iff.mp hlabels
      obtain ⟨_, hscalar, hdistinct, hfresh⟩ := labelValues_distinct hlabels
      obtain ⟨hothers, hlabelled, hseen, hfallback⟩ := ih.mp hrest
      refine ⟨.cons ⟨labelValues_eq_ok hlabels, typed, htyped, rfl⟩ hothers, ?_, ?_, hfallback⟩
      · refine .cons hne hscalar hdistinct hlabelled (fun a ha b hb => ?_)
        exact hseen b hb a (List.mem_append_left seen ha)
      · refine List.forall_mem_append.mpr ⟨hfresh, fun value hvalue a ha => ?_⟩
        exact hseen value hvalue a (List.mem_append_right labels ha)
    · rintro ⟨hbranches, hlabelled, hseen, hfallback⟩
      cases hbranches with
      | @cons _ branch _ others hbranch hothers =>
        obtain ⟨labels, output'⟩ := branch
        obtain ⟨hlabels, typed, htyped, rfl⟩ := hbranch
        obtain ⟨hfresh, hothersFresh⟩ := List.forall_mem_append.mp hseen
        obtain ⟨hne, hdistinct, hlabelled, hapart⟩ := hlabelled.of_cons
        have hread := labelValues_of_distinct hlabels hdistinct hfresh
        refine ⟨labels, branchLabels_eq_ok_iff.mpr ⟨hne, hread⟩, typed, htyped,
          ⟨others, otherwise⟩, ih.mpr ⟨hothers, hlabelled, ?_, hfallback⟩, rfl⟩
        -- the branches behind have seen these labels and those seen before
        intro value hvalue
        exact List.forall_mem_append.mpr
          ⟨fun a ha => hapart a ha value hvalue, hothersFresh value hvalue⟩

/-- **A choice by labels** spells a node with the listed labels, none of which is repeated. -/
theorem spells_match {name : String} {stops : List (Json × Json)} {fallback : Json} :
    (call "match" (propertyOf name :: (alternate stops ++ [fallback]))).Spells type expr ↔
      stops ≠ [] ∧ ∃ branches otherwise, SpellBranches type stops branches ∧
        DistinctLabels (branches.map (·.1)) ∧ fallback.Spells type otherwise ∧
        expr = .select (propertyExpr name) branches otherwise := by
  let get := propertyOf name
  let rest := Json.operands 2 (alternate stops ++ [fallback])
  have hlength : rest.length = 2 * stops.length + 1 := by
    rw [length_operands, List.length_append, length_alternate, List.length_singleton]
  have hrule : (call "match" (get :: (alternate stops ++ [fallback]))).infer (some type) =
      matchRule (⟨1, get, get.infer⟩ :: rest) (some type) := rfl
  have hget : (⟨1, get, get.infer⟩ : Operand).checkExpr none = .ok (propertyExpr name) := rfl
  by_cases hstops : stops = []
  · -- the property and the fallback are too few arguments
    subst hstops
    have hfail : (call "match" (get :: (alternate [] ++ [fallback]))).infer (some type) =
        .fail (.tooFewBranches 4 2) := hrule
    simp [Json.Spells, Json.check, get, hfail, Checked.fail, Except.bind]
  · have hpos : 0 < stops.length := List.length_pos_iff.mpr hstops
    rw [matchRule, if_neg (by simp only [List.length_cons, hlength]; omega),
      if_neg (by simp [hlength, Nat.add_assoc])] at hrule
    apply Json.spells_iff_of_infer
    intro typed
    simp only [get, hrule, hget, Except.seq_eq_ok_iff, Except.pure_eq_ok_iff]
    constructor
    · rintro ⟨_, ⟨⟩, ⟨branches, otherwise⟩, hbranches, rfl⟩
      obtain ⟨hbranches, hlabelled, _, hfallback, htype⟩ := selectBranches_eq_ok_iff.mp hbranches
      exact ⟨_, ⟨hstops, branches, otherwise.expr, hbranches, hlabelled, hfallback, rfl⟩,
        by rw [htype]⟩
    · rintro ⟨_, ⟨_, branches, otherwise, hbranches, hlabelled, hfallback, rfl⟩, rfl⟩
      exact ⟨_, rfl, ⟨branches, ⟨otherwise, type⟩⟩,
        selectBranches_eq_ok_iff.mpr ⟨hbranches, hlabelled, by simp, hfallback, rfl⟩, rfl⟩

end StopFunction

end Symbology
