import Symbology.Proofs.Constancy
import Symbology.Proofs.StopFunction.Compiling
import Symbology.Proofs.StopFunction.Trees
import Symbology.Proofs.TypeSafety

set_option autoImplicit false

/-! # Stop functions with a default of their own

The default of a stop function steps in for `null` and for errors, so such a function has a value at
every zoom level, or none, and for every feature, or none (`Declaration.evaluate_recovers`). The
value has the type of the property: the tree of a stop function has no `coalesce`, the only operator
that passes on a value of another type. -/

namespace Symbology

variable {spec : PropertySpec} {options : CompileOptions} {compiled : PropertyExpression}

/-! ## Expressions that recover -/

namespace PropertyExpression

variable {json : Json}

/-- What stands for a stop function recovers with the default of the options. -/
theorem recovers_of_compile (h : compile json spec options = .ok compiled)
    (hconverted : options.converted = true) {default : Json}
    (hdefault : options.default = some default) (hnull : default ≠ .null) :
    compiled.recovers = true ∧ ∃ value, compiled.default = some value := by
  obtain ⟨typed, found, _, _, hfound, rfl⟩ := compile_eq_ok_iff.mp h
  have hchosen : options.default.filter (!·.isNull) = some default := by
    rw [hdefault, Option.filter_eq_some_iff]
    cases default with
    | null => exact absurd rfl hnull
    | _ => exact ⟨rfl, rfl⟩
  refine ⟨by simp [hconverted, hchosen], ?_⟩
  have hown : chosenDefault spec options = some default := by
    rw [chosenDefault, hchosen, Option.some_or]
  rw [hown] at hfound
  obtain ⟨value, _, hvalue⟩ := Except.map_eq_ok_iff.mp hfound
  exact ⟨value, hvalue.symm⟩

/-- An expression that recovers has a value in every context. -/
theorem exists_evaluate_of_recovers (hrecovers : compiled.recovers = true) {default : Value}
    (hdefault : compiled.default = some default) (context : Context) :
    ∃ value, compiled.evaluate context = .ok value := by
  unfold evaluate
  split
  · exact ⟨_, rfl⟩
  next value _ _ => exact ⟨value, rfl⟩
  · rw [hdefault, hrecovers]
    exact ⟨default, rfl⟩

/-- Where there is a default, `null` is never a result. -/
theorem ne_null_of_default (h : compile json spec options = .ok compiled) {default value : Value}
    (hdefault : compiled.default = some default) {context : Context}
    (heval : compiled.evaluate context = .ok value) : value ≠ .null := by
  rintro rfl
  rcases evaluate_eq_ok heval with hnull | ⟨_, hnone⟩
  · exact default_ne_null h hnull
  · rw [hdefault] at hnone
    exact absurd (hnone rfl) (by simp)

end PropertyExpression

/-! ## Stop functions -/

namespace StopFunction

variable {json : Json} {function : StopFunction}

theorem IsPart.isCoalesce_eq_false {name? : Option String} {node : Expr} (h : IsPart name? node) :
    node.isCoalesce = false := by
  cases h with
  | guard target => cases target <;> rfl
  | curve hroot => cases hroot <;> rfl
  | literal | property | choice => rfl

/-- The tree of a stop function has no `coalesce`. -/
theorem isCoalesce_of_compile (hread : read json spec = .ok function)
    (h : PropertyExpression.compile function.expression spec options = .ok compiled) :
    ∀ node ∈ compiled.expr.nodes, node.isCoalesce = false := by
  have hkind : ∀ name kind, function = .identity name kind → kind = spec.kind := by
    rintro name kind rfl
    exact kind_of_identity hread
  intro node hnode
  rcases (hasTree_of_spells hkind (PropertyExpression.spells_of_compile h)).parts node hnode with
    rfl | hpart
  · rfl
  · exact hpart.isCoalesce_eq_false

/-- The results of a stop function are `null` or of the type of the property. -/
theorem accepts_of_evaluate (hread : read json spec = .ok function)
    (h : PropertyExpression.compile function.expression spec options = .ok compiled)
    {context : Context} {value : Value} (heval : compiled.evaluate context = .ok value) :
    value = .null ∨ spec.type.accepts value.type = true := by
  have hchecked : ¬compiled.expr.Unchecked context spec.type :=
    Expr.not_unchecked_of_no_coalesce (isCoalesce_of_compile hread h)
  exact (PropertyExpression.evaluate_accepted_iff h heval).mpr (fun hunchecked =>
    hchecked hunchecked.2)

end StopFunction

/-! ## Declarations -/

/-- An object without an expression is read as a stop function. -/
theorem PropertyValue.stopFunction_of_read {members : List (String × Json)} {value : PropertyValue}
    (h : read spec (.object members) = .ok value)
    (hexpression : members.lookup "expression" = none) :
    ∃ function compiled, StopFunction.read (.object members) spec = .ok function ∧
      PropertyExpression.compile function.expression spec
        { default := members.lookup "default", converted := true } = .ok compiled ∧
      value = .expression compiled := by
  have hnone : (Json.object members).expression? = none := hexpression
  have hshape : Shape.classify spec (.object members) = .stopFunction := by
    simp [Shape.classify, hnone]
  have hvalue : ofStopFunction spec (.object members) = .ok value := by
    rw [read, hshape] at h
    exact h
  unfold ofStopFunction ofExpression at hvalue
  split at hvalue
  next function hread =>
    split at hvalue
    next compiled hcompile =>
      exact ⟨function, compiled, hread, hcompile, (Except.ok.inj hvalue).symm⟩
    next => contradiction
  next => contradiction

namespace Declaration

/-- Raising a value to the lower bound keeps its type. -/
theorem type_raise (minimum : Option Float) (value : Value) :
    (raise minimum value).type = value.type := by
  unfold raise
  split
  · split <;> rfl
  · rfl

/-- **A stop function with a default of its own always has a value**, whatever the zoom level and
the feature are, and the value is one of the type of the property. -/
theorem evaluate_recovers {members : List (String × Json)} {declaration : Declaration}
    {default : Json} (h : read spec (.object members) = .ok declaration)
    (hexpression : members.lookup "expression" = none)
    (hdefault : members.lookup "default" = some default) (hnull : default ≠ .null)
    (context : Context) :
    ∃ value, declaration.evaluate context = .ok value ∧ value ≠ .null ∧
      spec.type.accepts value.type = true := by
  obtain ⟨value, hvalue, rfl⟩ := Except.map_eq_ok_iff.mp h
  obtain ⟨function, compiled, hread, hcompile, rfl⟩ :=
    PropertyValue.stopFunction_of_read hvalue hexpression
  obtain ⟨hrecovers, own, hown⟩ :=
    PropertyExpression.recovers_of_compile hcompile rfl hdefault hnull
  obtain ⟨result, hresult⟩ :=
    PropertyExpression.exists_evaluate_of_recovers hrecovers hown context
  have hne : result ≠ .null := PropertyExpression.ne_null_of_default hcompile hown hresult
  have haccepts := (StopFunction.accepts_of_evaluate hread hcompile hresult).resolve_left hne
  refine ⟨raise spec.minimum result, ?_, ?_, ?_⟩
  · rw [evaluate, PropertyValue.evaluate, hresult]
    rfl
  · rwa [ne_eq, ← Value.type_eq_null_iff, type_raise, Value.type_eq_null_iff]
  · rwa [type_raise]

/-- A function of the zoom level has its default where there is no zoom level. -/
theorem evaluate_recovers_zoom_stops :
    ∃ declaration, read { kind := .number } (.object [("default", .number (.integer 2)),
        ("stops", .array [
          .array [.number (.integer 0), .number (.integer 1)],
          .array [.number (.integer 10), .number (.integer 4)]])]) = .ok declaration ∧
      Json.number (.integer 2) ≠ .null ∧
      ∃ value, declaration.evaluate {} = .ok value ∧ value ≠ .null ∧
        ValueType.number.accepts value.type = true := by
  obtain ⟨declaration, hread⟩ := Except.exists_of_isOk (x := read { kind := .number }
    (.object [("default", .number (.integer 2)),
      ("stops", .array [
        .array [.number (.integer 0), .number (.integer 1)],
        .array [.number (.integer 10), .number (.integer 4)]])])) rfl
  have hnull : Json.number (.integer 2) ≠ .null := by simp
  exact ⟨declaration, hread, hnull, evaluate_recovers hread rfl rfl hnull {}⟩

end Declaration

end Symbology
