import Symbology.Proofs.Typing.Errors
import Symbology.Proofs.WrittenDependence

set_option autoImplicit false

/-! # Why stop functions are refused

The expression that a stop function stands for is grammatical, whatever the function is: it has at
least one stop, the labels of its stops are numbers, and its outputs are quoted. So once a function
is read, its expression is refused only for its labels, its types, its colors, what the property
allows, or the default (`refusal_of_read`). -/

namespace Symbology

open Typing

/-! ## Errors of compiling -/

namespace PropertyExpression

variable {json : Json} {spec : PropertySpec} {options : CompileOptions} {e : CompileError}

theorem allowed_eq_error {expr : Expr} (h : allowed spec expr = .error e) :
    e.cause = .featureDependent ∨ e.cause = .zoomDependent ∨
      e.cause = .zoomMisplaced ∧ expr.isZoomConstant = false ∧ expr.zoomCurve? = none := by
  unfold allowed at h
  split at h
  · exact Or.inl (congrArg CompileError.cause (Except.error.inj h).symm)
  · split at h
    · exact Or.inr (Or.inl (congrArg CompileError.cause (Except.error.inj h).symm))
    · split at h
      next hcurve =>
        refine Or.inr (Or.inr ⟨congrArg CompileError.cause (Except.error.inj h).symm, ?_⟩)
        simpa using hcurve
      · contradiction

theorem place_of_defaultValue {expected : ValueType} (h : defaultValue expected json = .error e) :
    e.place = .default := by
  obtain ⟨inner, _, rfl⟩ := Except.mapError_eq_error_iff.mp h
  rfl

/-- **Compiling fails where one of its steps does.** -/
theorem compile_eq_error (h : compile json spec options = .error e) :
    json.check (some spec.type) = .error e ∨
      (∃ typed, json.check (some spec.type) = .ok typed ∧
        allowed spec typed.expr = .error e) ∨
      e.place = .default := by
  rcases Except.seq_eq_error_iff.mp h with hcheck | ⟨typed, htyped, h⟩
  · exact Or.inl hcheck
  · rcases Except.seq_eq_error_iff.mp h with hallowed | ⟨_, _, h⟩
    · exact Or.inr (Or.inl ⟨typed, htyped, hallowed⟩)
    · rcases Except.seq_eq_error_iff.mp h with hdefault | ⟨_, _, hpure⟩
      · refine Or.inr (Or.inr ?_)
        cases hchosen : chosenDefault spec options with
        | none =>
          rw [hchosen] at hdefault
          contradiction
        | some chosen =>
          rw [hchosen] at hdefault
          exact place_of_defaultValue (Except.map_eq_error_iff.mp hdefault)
      · exact absurd hpure Except.pure_ne_error

end PropertyExpression

namespace StopFunction

variable {names : List String}

/-! ## Stops in turn -/

/-- Labels and outputs at their places. -/
def placedStops (role : Role) (stops : List (Json × Json)) : List (Role × Json) :=
  stops.flatMap (fun stop => [(role, stop.1), (.expression, stop.2)])

theorem zip_alternate (role : Role) (stops : List (Json × Json)) (last : List Json) :
    (alternating role (alternate stops ++ last).length).zip (alternate stops ++ last) =
      placedStops role stops ++ (alternating role last.length).zip last := by
  induction stops with
  | nil => rfl
  | cons stop rest ih =>
    obtain ⟨label, output⟩ := stop
    exact congrArg ((role, label) :: (.expression, output) :: ·) ih

theorem forall_placedStops {role : Role} {stops : List (Json × Json)} {P : Role × Json → Prop}
    (hstops : ∀ stop ∈ stops, P (role, stop.1) ∧ P (.expression, stop.2)) :
    ∀ place ∈ placedStops role stops, P place := by
  intro place hplace
  obtain ⟨stop, hstop, hplace⟩ := List.mem_flatMap.mp hplace
  obtain ⟨hlabel, houtput⟩ := hstops stop hstop
  rcases List.mem_cons.mp hplace with rfl | hplace
  · exact hlabel
  · obtain rfl := List.mem_singleton.mp hplace
    exact houtput

/-! ## Calls -/

/-- A value at its place: it can be read there, and is grammatical if it is an expression. -/
def Stands (names : List String) (place : Role × Json) : Prop :=
  place.1.admits place.2 = true ∧ (place.1 = .expression → Grammatical names place.2)

theorem stands_expression {json : Json} (h : Grammatical names json) :
    Stands names (.expression, json) :=
  ⟨rfl, fun _ => h⟩

theorem stands_operand {role : Role} {json : Json} (hrole : role ≠ .expression)
    (h : role.admits json = true) : Stands names (role, json) :=
  ⟨h, fun heq => absurd heq hrole⟩

theorem grammatical_call {name : String} {form : Form} {args : List Json} (known : name ∈ names)
    (found : forms.lookup name = some form) {roles : List Role}
    (hroles : form.roles args.length = some roles)
    (hargs : ∀ place ∈ roles.zip args, Stands names place) :
    Grammatical names (call name args) := by
  have hplaced : form.placed args = roles.zip args := by
    rw [Form.placed, hroles]
    rfl
  refine .call known found ⟨by rw [hroles]; rfl, ?_⟩ (fun arg harg => ?_)
  · rw [hplaced]
    exact fun place hplace => (hargs place hplace).1
  · rw [hplaced] at harg
    exact (hargs _ harg).2 rfl

/-- A call with one expression. -/
theorem grammatical_unary {name : String} {form : Form} {arg : Json} (known : name ∈ names)
    (found : forms.lookup name = some form) (hroles : form.roles 1 = some [.expression])
    (harg : Grammatical names arg) : Grammatical names (call name [arg]) :=
  grammatical_call known found hroles (List.forall_mem_singleton.mpr (stands_expression harg))

/-! ## The expressions of stop functions -/

/-- The operators that stop functions are written with. -/
def operatorNames : List String :=
  ["literal", "get", "zoom", "number", "string", "boolean", "to-color", "match", "step",
    "interpolate"]

/-- The expression is grammatical and needs no other operators. -/
abbrev Written (json : Json) : Prop :=
  Grammatical operatorNames json

theorem written_quoted (output : Json) : Written (quoted output) := by
  have hliteral : ∀ json, Written (call "literal" [json]) := fun json =>
    grammatical_call (by decide) rfl rfl
      (List.forall_mem_singleton.mpr (stands_operand (by decide) rfl))
  cases output with
  | null => exact .null
  | bool b => exact .bool b
  | number n => exact .number n
  | string s => exact .string s
  | array items => exact hliteral _
  | object members => exact hliteral _

theorem written_propertyOf (name : String) : Written (propertyOf name) :=
  grammatical_unary (by decide) rfl rfl (.string name)

theorem written_zoomLevel : Written zoomLevel :=
  grammatical_call (by decide) rfl rfl (fun _ h => absurd h List.not_mem_nil)

theorem written_identity (name : String) (kind : PropertyKind) :
    Written (identityExpression name kind) := by
  cases kind with
  | array => exact written_propertyOf name
  | _ => exact grammatical_unary (by decide) rfl rfl (written_propertyOf name)

theorem admits_interpolation (base : Option Json.Number) :
    Role.interpolation.admits (interpolation base) = true := by
  rw [Role.admits, interpolation_eq_rate]
  rfl

section Stops

variable {input first : Json} {stops : List (Json × Json)}
  (hstops : ∀ stop ∈ stops,
    Stands operatorNames (.stopLabel, stop.1) ∧ Stands operatorNames (.expression, stop.2))

include hstops

theorem stands_alternate : ∀ place ∈
    (alternating .stopLabel (alternate stops).length).zip (alternate stops),
      Stands operatorNames place := by
  have hzip := zip_alternate .stopLabel stops []
  simp only [List.append_nil, List.zip_nil_right] at hzip
  rw [hzip]
  exact forall_placedStops hstops

theorem written_step (hinput : Written input) (hfirst : Written first) :
    Written (call "step" (input :: first :: alternate stops)) := by
  have hcount : (input :: first :: alternate stops).length = 2 * stops.length + 2 := by
    simp [length_alternate]
  refine grammatical_call (by decide) rfl (if_pos (by omega)) ?_
  rw [List.zip_cons_cons, List.zip_cons_cons, List.forall_mem_cons, List.forall_mem_cons]
  exact ⟨stands_expression hinput, stands_expression hfirst, stands_alternate hstops⟩

theorem written_interpolate (hne : stops ≠ []) (hinput : Written input)
    (base : Option Json.Number) :
    Written (call "interpolate" (interpolation base :: input :: alternate stops)) := by
  have hpos := List.length_pos_of_ne_nil hne
  have hcount : (interpolation base :: input :: alternate stops).length =
      2 * stops.length + 2 := by
    simp [length_alternate]
  refine grammatical_call (by decide) rfl (if_pos (by omega)) ?_
  rw [List.zip_cons_cons, List.zip_cons_cons, List.forall_mem_cons, List.forall_mem_cons]
  exact ⟨stands_operand (by decide) (admits_interpolation base), stands_expression hinput,
    stands_alternate hstops⟩

end Stops

theorem written_curve {curve : Curve} {input : Json} {stops : List (Json.Number × Json)}
    (hne : stops ≠ []) (hinput : Written input) (hstops : ∀ stop ∈ stops, Written stop.2) :
    Written (curve.expression input stops) := by
  have hstands : ∀ stop ∈ stops, Stands operatorNames (.stopLabel, .number stop.1) ∧
      Stands operatorNames (.expression, stop.2) :=
    fun stop hstop => ⟨stands_operand (by decide) rfl, stands_expression (hstops stop hstop)⟩
  cases curve with
  | interval =>
    obtain ⟨stop, rest, rfl⟩ := List.exists_cons_of_ne_nil hne
    obtain ⟨hfirst, _⟩ := List.forall_mem_cons.mp hstops
    exact written_step (List.forall_mem_map.mpr (List.forall_mem_cons.mp hstands).2) hinput hfirst
  | exponential base =>
    exact written_interpolate (List.forall_mem_map.mpr hstands) (by simpa using hne) hinput base

theorem written_match {name : String} {stops : List (Json × Json)} {fallback : Json}
    (hne : stops ≠ []) :
    Written (call "match" (propertyOf name ::
      (alternate (quotedOutputs stops) ++ [quoted fallback]))) := by
  have hpos := List.length_pos_of_ne_nil hne
  have hcount : (propertyOf name ::
      (alternate (quotedOutputs stops) ++ [quoted fallback])).length = 2 * stops.length + 2 := by
    simp [length_alternate, quotedOutputs]
  refine grammatical_call (by decide) rfl (if_pos (by omega)) ?_
  rw [List.zip_cons_cons, List.length_cons, Nat.add_sub_cancel, zip_alternate,
    List.forall_mem_cons, List.forall_mem_append]
  refine ⟨stands_expression (written_propertyOf name), forall_placedStops ?_, ?_⟩
  · refine List.forall_mem_map.mpr (fun stop _ => ⟨stands_operand (by decide) rfl, ?_⟩)
    exact stands_expression (written_quoted stop.2)
  · exact List.forall_mem_singleton.mpr (stands_expression (written_quoted fallback))

/-! ## Functions -/

/-- There is a stop. -/
def Body.HasStops : Body → Prop
  | .ordered _ stops => stops ≠ []
  | .categorical stops _ => stops ≠ []

/-- There is a stop, and in each group too. An identity function needs none. -/
def HasStops : StopFunction → Prop
  | .identity .. => True
  | .overZoom _ stops => stops ≠ []
  | .overProperty _ body => body.HasStops
  | .overBoth _ _ groups => groups ≠ [] ∧ ∀ group ∈ groups, group.body.HasStops

theorem written_body {name : String} {body : Body} (h : body.HasStops) :
    Written (body.expression name) := by
  cases body with
  | ordered curve stops =>
    have hinput : Written (call "number" [propertyOf name]) :=
      grammatical_unary (by decide) rfl rfl (written_propertyOf name)
    have hne : quotedOutputs stops ≠ [] := mt List.map_eq_nil_iff.mp h
    exact written_curve hne hinput (List.forall_mem_map.mpr (fun stop _ => written_quoted stop.2))
  | categorical stops fallback =>
    -- the first stop is never left out
    have hne : firstOfEach [] stops ≠ [] := by
      obtain ⟨stop, rest, rfl⟩ := List.exists_cons_of_ne_nil h
      exact List.cons_ne_nil _ _
    exact written_match hne

/-- **A function with stops is written in the grammar.** -/
theorem written_expression {function : StopFunction} (h : function.HasStops) :
    Written function.expression := by
  cases function with
  | identity name kind => exact written_identity name kind
  | overZoom curve stops =>
    have hne : quotedOutputs stops ≠ [] := mt List.map_eq_nil_iff.mp h
    exact written_curve hne written_zoomLevel
      (List.forall_mem_map.mpr (fun stop _ => written_quoted stop.2))
  | overProperty name body => exact written_body h
  | overBoth name curve groups =>
    have hne : groups.map (fun group => (group.zoom, group.body.expression name)) ≠ [] :=
      mt List.map_eq_nil_iff.mp h.1
    exact written_curve hne written_zoomLevel
      (List.forall_mem_map.mpr (fun group hgroup => written_body (h.2 group hgroup)))

theorem hasStops_of_body {settings : Settings} {stops : List (Json × Json)} {body : Body}
    (hne : stops ≠ []) (h : settings.body stops = .ok body) : body.HasStops := by
  by_cases htype : settings.type = .categorical
  · rw [Settings.body, if_pos htype] at h
    obtain rfl := Except.ok.inj h
    exact hne
  · obtain ⟨found, rfl, rfl⟩ := (body_eq_ok_iff htype).mp h
    exact mt (congrArg writtenNumbers) hne

/-- Each group has a stop, since a run is never empty. -/
theorem hasStops_of_groups {settings : Settings} {stops : List CompositeStop}
    {groups' : List Group} (hne : stops ≠ [])
    (h : groups settings (runs stops) = .ok groups') :
    groups' ≠ [] ∧ ∀ group ∈ groups', group.body.HasStops := by
  have hgroups := groups_eq_ok_iff.mp h
  have hruns := runs_eq_splitBy stops
  constructor
  · rintro rfl
    rw [List.forall₂_nil_right_iff.mp hgroups, List.forall₂_nil_right_iff,
      List.splitBy_eq_nil] at hruns
    exact hne hruns
  · intro group hgroup
    obtain ⟨run, hrun, _, hbody⟩ := hgroups.exists_of_mem_right hgroup
    obtain ⟨part, _, first, rest, rfl, rfl⟩ := hruns.exists_of_mem_right hrun
    exact hasStops_of_body (List.cons_ne_nil _ _) hbody

/-- **What is read has stops.** -/
theorem hasStops_of_read {json : Json} {spec : PropertySpec} {function : StopFunction}
    (h : read json spec = .ok function) : function.HasStops := by
  unfold read at h
  split at h
  next members =>
    obtain ⟨type, name, _, _, _, hfunction⟩ := ofMembers_eq_ok_iff.mp h
    rcases hfunction with ⟨_, property, _, rfl⟩ | ⟨_, found, base', hfound, _, hstops⟩
    · trivial
    · obtain ⟨hne, _⟩ := stops_eq_ok_iff.mp hfound
      rcases ofStops_eq_ok_iff.mp hstops with ⟨_, stops, _, _, _, hstops, hgroups, rfl⟩ |
        ⟨_, body, _, _, hbody, rfl⟩ | ⟨numeric, _, _, _, hnumeric, rfl⟩
      · refine hasStops_of_groups ?_ hgroups
        rintro rfl
        exact hne (List.forall₂_nil_right_iff.mp (compositeStops_eq_ok_iff.mp hstops))
      · exact hasStops_of_body hne hbody
      · rw [numericStops_eq_ok_iff.mp hnumeric] at hne
        exact mt (congrArg writtenNumbers) hne
  next => contradiction

/-! ## Refusals -/

/-- **What can still be wrong with a stop function that was read.** -/
inductive Refusal : CompileError.Cause → Prop
  | stopOrder {operator : StopOperator} : Refusal (.stopOrder operator)
  | noLabel : Refusal .noLabel
  | labelKind : Refusal .labelKind
  | labelRepeated : Refusal .labelRepeated
  | typeMismatch {expected actual : ValueType} : Refusal (.typeMismatch expected actual)
  | notInterpolable {type : ValueType} : Refusal (.notInterpolable type)
  | color {error : Color.ReadError} : Refusal (.color error)
  | featureDependent : Refusal .featureDependent
  | zoomDependent : Refusal .zoomDependent

/-- What the operators of stop functions object to. -/
theorem refusal_of_objects : ∀ name ∈ operatorNames, ∀ form, forms.lookup name = some form →
    ∀ cause, form.objects cause → Refusal cause := by
  have hform : ∀ {name : String} {known : Form}, forms.lookup name = some known →
      (∀ cause, known.objects cause → Refusal cause) → ∀ form, forms.lookup name = some form →
        ∀ cause, form.objects cause → Refusal cause := by
    intro name known hknown hrefusal form hform
    obtain rfl := Option.some.inj (hknown.symm.trans hform)
    exact hrefusal
  have hnone : ∀ cause, False → Refusal cause := fun _ => False.elim
  simp only [operatorNames, List.forall_mem_cons]
  refine ⟨hform rfl ?literal, hform rfl hnone, hform rfl hnone, hform rfl hnone, hform rfl hnone,
    hform rfl hnone, hform rfl hnone, hform rfl ?choice, hform rfl ?step, hform rfl ?interpolate,
    fun _ h => absurd h List.not_mem_nil⟩
  case literal =>
    rintro _ ⟨error, rfl⟩
    exact .color
  case choice =>
    intro cause hcause
    simp only [Form.choice, List.mem_cons, List.not_mem_nil, or_false] at hcause
    rcases hcause with rfl | rfl | rfl
    · exact .noLabel
    · exact .labelKind
    · exact .labelRepeated
  case step =>
    rintro _ rfl
    exact .stopOrder
  case interpolate =>
    rintro _ (rfl | ⟨type, rfl⟩)
    · exact .stopOrder
    · exact .notInterpolable

theorem refusal_of_objection {cause : CompileError.Cause} (h : Objection operatorNames cause) :
    Refusal cause := by
  cases h with
  | mismatch => exact .typeMismatch
  | color => exact .color
  | operator known found objects => exact refusal_of_objects _ known _ found _ objects

/-- The zoom level stands where it may: in a function of the zoom level it is the input of the
curve. -/
theorem zoom_placed {json : Json} {spec : PropertySpec} {function : StopFunction} {typed : Typed}
    (hread : read json spec = .ok function)
    (hcheck : function.expression.check (some spec.type) = .ok typed) :
    typed.expr.isZoomConstant = true ∨ typed.expr.zoomCurve?.isSome = true := by
  have hkind : ∀ name kind, function = .identity name kind → kind = spec.kind := by
    rintro name kind rfl
    exact kind_of_identity hread
  have htree := hasTree_of_spells hkind ⟨typed, hcheck, rfl⟩
  cases hzoom : function.looksAtZoom with
  | false => exact Or.inl (htree.isZoomConstant_iff.mpr hzoom)
  | true =>
    obtain ⟨curve, hcurve⟩ := htree.isZoomCurve hzoom
    exact Or.inr (by rw [Expr.zoomCurve_eq_some_iff.mpr hcurve]; rfl)

/-- **A stop function is written in the grammar of expressions.** Whatever is read stands for an
expression that is grammatical; so the expression is refused only for the order of its labels, for
its labels of branches, for a type that does not fit or cannot be blended, for a color, for what the
property may depend on, or for the default. -/
theorem refusal_of_read {json : Json} {spec : PropertySpec} {function : StopFunction}
    (hread : read json spec = .ok function) :
    Grammatical operatorNames function.expression ∧
      ∀ options e,
        PropertyExpression.compile function.expression spec options = .error e →
          Refusal e.cause ∨ e.place = .default := by
  have hwritten := written_expression (hasStops_of_read hread)
  refine ⟨hwritten, fun options e hcompile => ?_⟩
  rcases PropertyExpression.compile_eq_error hcompile with
    hcheck | ⟨typed, hcheck, hallowed⟩ | hdefault
  · exact Or.inl (refusal_of_objection (Json.objection_of_check_eq_error hwritten hcheck))
  · refine Or.inl ?_
    rcases PropertyExpression.allowed_eq_error hallowed with
      hcause | hcause | ⟨_, hconstant, hcurve⟩
    · exact hcause ▸ .featureDependent
    · exact hcause ▸ .zoomDependent
    · -- the zoom level is not misplaced
      rcases zoom_placed hread hcheck with hplaced | hplaced
      · rw [hconstant] at hplaced
        contradiction
      · rw [hcurve] at hplaced
        contradiction
  · exact Or.inr hdefault

/-- A function of the zoom level whose stops descend. -/
theorem refusal_of_read_descending :
    ∃ function e, read (.object [("stops", writtenStops [
          (.number (.integer 10), .number (.integer 1)),
          (.number (.integer 0), .number (.integer 4))])]) { kind := .number } = .ok function ∧
      PropertyExpression.compile function.expression { kind := .number } { converted := true } =
        .error e ∧
      Grammatical operatorNames function.expression ∧
      (Refusal e.cause ∨ e.place = .default) := by
  obtain ⟨function, hread⟩ := Except.exists_of_isOk (x := read (.object [("stops", writtenStops [
    (.number (.integer 10), .number (.integer 1)),
    (.number (.integer 0), .number (.integer 4))])]) { kind := .number }) rfl
  obtain rfl : overZoom (.exponential none)
      [(.integer 10, .number (.integer 1)), (.integer 0, .number (.integer 4))] = function :=
    Except.ok.inj hread
  obtain ⟨hwritten, hrefusal⟩ := refusal_of_read hread
  cases hcompile : PropertyExpression.compile (overZoom (.exponential none)
      [(.integer 10, .number (.integer 1)), (.integer 0, .number (.integer 4))]).expression
      { kind := .number } { converted := true } with
  | ok compiled =>
    have hrefused : (PropertyExpression.compile (overZoom (.exponential none)
        [(.integer 10, .number (.integer 1)), (.integer 0, .number (.integer 4))]).expression
        { kind := .number } { converted := true }).isOk = false := by decide
    rw [hcompile] at hrefused
    contradiction
  | error e => exact ⟨_, e, hread, hcompile, hwritten, hrefusal _ e hcompile⟩

end StopFunction

end Symbology
