import Symbology.Proofs.PropertyExpression
import Symbology.Proofs.StopFunction.Reading
import Symbology.Proofs.StopFunction.Spelling

set_option autoImplicit false

/-! # What compiling a stop function finds

A function with one list of stops is either a curve over the zoom level or a property, or a choice
by labels of a property. Its tree is the one that the stops spell, as they are written
(`exists_curve_of_compile`, `exists_choice_of_compile`). -/

namespace Symbology

variable {spec : PropertySpec} {options : CompileOptions} {compiled : PropertyExpression}

/-- The tree of a compiled expression is what the JSON value spells. -/
theorem PropertyExpression.spells_of_compile {json : Json}
    (h : compile json spec options = .ok compiled) : json.Spells spec.type compiled.expr := by
  obtain ⟨typed, _, hcheck, _, _, rfl⟩ := compile_eq_ok_iff.mp h
  exact ⟨typed, hcheck, rfl⟩

namespace StopFunction

variable {members : List (String × Json)} {function : StopFunction} {type : FunctionType}
  {written : List (Json × Json)}

/-- The property of a feature never fails to be read. -/
theorem eval_propertyExpr (context : Context) (name : String) :
    (propertyExpr name).eval context = .ok (context.propertyValue name) :=
  rfl

/-- The input of a curve: the zoom level, or the property if there is one. -/
def curveInput : Option String → Json
  | none => zoomLevel
  | some name => call "number" [propertyOf name]

/-- **A function with one list of stops is a curve**, unless it is an identity function or
categorical. -/
theorem exists_curve_of_compile (hread : read (.object members) spec = .ok function)
    (hcompile : PropertyExpression.compile function.expression spec options = .ok compiled)
    (htype : functionType spec (members.lookup "type") = .ok type)
    (hordered : type ≠ .identity ∧ type ≠ .categorical)
    (hstops : members.lookup "stops" = some (writtenStops written))
    (hplain : isComposite written = false) :
    ∃ (name : Option String) (settings : Settings) (numeric : List NumericStop),
      propertyName (members.lookup "property") = .ok name ∧
      settings.type = type ∧ written = writtenNumbers numeric ∧ numeric ≠ [] ∧
      (settings.curve.expression (curveInput name) (quotedOutputs numeric)).Spells spec.type
        compiled.expr := by
  obtain ⟨hidentity, hcategorical⟩ := hordered
  obtain ⟨name, base', hname, _, hne, _, hfunction⟩ :=
    (read_eq_ok_iff_of_stops htype hidentity hstops).mp hread
  have hspells := PropertyExpression.spells_of_compile hcompile
  have hnumeric : ∀ {numeric}, written = writtenNumbers numeric → numeric ≠ [] := by
    rintro _ rfl rfl
    exact hne rfl
  rcases ofStops_eq_ok_iff.mp hfunction with ⟨_, _, _, _, hcomposite, _⟩ |
    ⟨property, body, rfl, _, hbody, rfl⟩ | ⟨numeric, rfl, _, _, hwritten, rfl⟩
  · rw [hplain] at hcomposite
    contradiction
  · obtain ⟨numeric, hwritten, rfl⟩ := (body_eq_ok_iff hcategorical).mp hbody
    exact ⟨some property, _, numeric, hname, rfl, hwritten, hnumeric hwritten, hspells⟩
  · rw [numericStops_eq_ok_iff] at hwritten
    exact ⟨none, _, numeric, hname, rfl, hwritten, hnumeric hwritten, hspells⟩

/-- **A categorical function is a choice** by the labels of those stops whose input stands at no
stop before. -/
theorem exists_choice_of_compile {name : String}
    (hread : read (.object members) spec = .ok function)
    (hcompile : PropertyExpression.compile function.expression spec options = .ok compiled)
    (htype : members.lookup "type" = some (.string "categorical"))
    (hname : members.lookup "property" = some (.string name))
    (hstops : members.lookup "stops" = some (writtenStops written))
    (hplain : isComposite written = false) :
    ∃ branches otherwise,
      SpellBranches spec.type (quotedOutputs (firstOfEach [] written)) branches ∧
      Typing.DistinctLabels (branches.map (·.1)) ∧
      (quoted (((members.lookup "default").or spec.default).getD .null)).Spells spec.type
        otherwise ∧
      compiled.expr = .select (propertyExpr name) branches otherwise := by
  obtain ⟨_, _, rfl⟩ :=
    (read_eq_ok_iff_of_categorical htype hname hstops hplain).mp hread
  exact (spells_match.mp (PropertyExpression.spells_of_compile hcompile)).2

end StopFunction

end Symbology
