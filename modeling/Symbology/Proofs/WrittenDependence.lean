import Symbology.Proofs.StopFunction.Reading
import Symbology.Proofs.StopFunction.Trees
import Symbology.Proofs.ZoomRule

set_option autoImplicit false

/-! # What stop functions depend on

A stop function depends on the feature exactly when it is written with a property, and then it reads
that property and nothing else; it depends on the zoom level exactly when it is written with no
property, or with stops that hold zoom levels, and then it is a curve over the zoom level. Its
outputs, labels and defaults are data wherever they stand (`tree_as_written`). So compiling never
refuses a stop function for where it reads the zoom level. -/

namespace Symbology

/-! ## Curves over the zoom level -/

theorem Expr.CurveOver.outputs_eq {input expr : Expr} {outputs : List Expr}
    (h : Expr.CurveOver input outputs expr) : expr.outputs = outputs := by
  cases h <;> rfl

/-- A curve whose input is the zoom level and whose outputs do not read it again. -/
theorem Expr.CurveOver.isZoomCurve {outputs : List Expr} {expr : Expr}
    (h : Expr.CurveOver .zoom outputs expr)
    (houtputs : ∀ output ∈ outputs, output.isZoomConstant = true) :
    ∃ curve, expr.IsZoomCurve curve := by
  have hstops : ∀ {stops : List (Float × Expr)},
      (∀ output ∈ stops.map (·.2), output.isZoomConstant = true) →
        Expr.freeStops Expr.readsZoom stops = true := by
    intro stops hstops
    rw [Expr.freeStops_eq_all, List.all_eq_true]
    exact hstops
  cases h with
  | @step first stops =>
    obtain ⟨hfirst, hrest⟩ := List.forall_mem_cons.mp houtputs
    refine ⟨_, Expr.zoomCurve_eq_some_iff.mp (if_pos ?_)⟩
    rw [hfirst, hstops hrest]
    rfl
  | interpolate => exact ⟨_, Expr.zoomCurve_eq_some_iff.mp (if_pos (hstops houtputs))⟩

namespace StopFunction

variable {type : ValueType} {expr : Expr} {name : String} {body : Body} {function : StopFunction}
  {members : List (String × Json)} {spec : PropertySpec}

/-! ## What the trees read -/

theorem Body.HasTree.property_mem (h : Body.HasTree type name body expr) :
    propertyExpr name ∈ expr.nodes := by
  cases h with
  | ordered root data =>
    refine Expr.mem_nodes_of_child (by rw [root.children_eq]; exact List.mem_cons_self) ?_
    exact Expr.mem_nodes_of_child List.mem_cons_self (Expr.self_mem_nodes _)
  | categorical => exact Expr.mem_nodes_of_child List.mem_cons_self (Expr.self_mem_nodes _)

/-- The property that a function looks at is in its tree. -/
theorem HasTree.property_mem (h : HasTree type function expr)
    (hname : function.property? = some name) : propertyExpr name ∈ expr.nodes := by
  cases h with
  | identity =>
    obtain rfl := Option.some.inj hname
    cases type <;> exact Expr.mem_nodes_of_child List.mem_cons_self (Expr.self_mem_nodes _)
  | overZoom => contradiction
  | overProperty tree =>
    obtain rfl := Option.some.inj hname
    exact tree.property_mem
  | overBoth nonempty root trees =>
    obtain rfl := Option.some.inj hname
    -- the first group looks at it
    cases trees with
    | nil => contradiction
    | cons tree _ =>
      refine Expr.mem_nodes_of_child ?_ tree.property_mem
      rw [root.children_eq]
      exact List.mem_cons_of_mem _ List.mem_cons_self

/-- **All that is read of the feature is the property.** -/
theorem HasTree.eq_of_readsFeature (h : HasTree type function expr) {node : Expr}
    (hnode : node ∈ expr.nodes) (hreads : node.readsFeature = true) :
    ∃ name, function.property? = some name ∧ node = propertyExpr name := by
  rcases h.parts node hnode with rfl | hpart
  · contradiction
  · exact hpart.eq_of_readsFeature hreads

theorem HasTree.isFeatureConstant_iff (h : HasTree type function expr) :
    expr.isFeatureConstant = true ↔ function.property? = none := by
  rw [Expr.isFeatureConstant, Expr.free_iff]
  constructor
  · intro hfree
    cases hname : function.property? with
    | none => rfl
    | some name => exact absurd (hfree _ (h.property_mem hname)) Bool.true_eq_false_eq_False
  · intro hnone node hnode
    refine Bool.eq_false_of_not_eq_true (fun hreads => ?_)
    obtain ⟨name, hname, _⟩ := h.eq_of_readsFeature hnode hreads
    rw [hnone] at hname
    contradiction

/-- The function looks at the zoom level. -/
def looksAtZoom : StopFunction → Bool
  | .overZoom .. | .overBoth .. => true
  | .identity .. | .overProperty .. => false

theorem isZoomConstant_of_data {written : List Json} {outputs : List Expr}
    (h : List.Forall₂ (IsQuoted type) written outputs) :
    ∀ output ∈ outputs, output.isZoomConstant = true := by
  intro output houtput
  obtain ⟨_, _, value, _, rfl⟩ := h.exists_of_mem_right houtput
  rfl

theorem HasTree.isZoomCurve (h : HasTree type function expr)
    (hzoom : function.looksAtZoom = true) : ∃ curve, expr.IsZoomCurve curve := by
  cases h with
  | identity | overProperty => contradiction
  | overZoom root data => exact root.isZoomCurve (isZoomConstant_of_data data)
  | overBoth _ root trees =>
    refine root.isZoomCurve (fun output houtput => ?_)
    obtain ⟨_, _, htree⟩ := trees.exists_of_mem_right houtput
    exact htree.isZoomConstant

theorem HasTree.isZoomConstant_iff (h : HasTree type function expr) :
    expr.isZoomConstant = true ↔ function.looksAtZoom = false := by
  cases hzoom : function.looksAtZoom with
  | true =>
    obtain ⟨curve, hcurve⟩ := h.isZoomCurve hzoom
    simp [hcurve.not_isZoomConstant]
  | false =>
    cases h with
    | overZoom | overBoth => contradiction
    | identity => cases type <;> simp [Typed.guard, propertyExpr, Expr.isZoomConstant, Expr.free,
        Expr.freeArgs, Expr.readsZoom]
    | overProperty tree => simp [tree.isZoomConstant]

/-! ## What is written -/

/-- The function is written to depend on the zoom level: there is no property, or the stops hold
zoom levels. An identity function does not look at its stops. -/
def WritesZoom (members : List (String × Json)) : Prop :=
  members.lookup "property" = none ∨
    members.lookup "type" ≠ some (.string "identity") ∧
      ∃ written, members.lookup "stops" = some (writtenStops written) ∧ isComposite written = true

/-- What is read looks at the property and at the zoom level as it is written to. -/
theorem inputs_of_read (hread : read (.object members) spec = .ok function) :
    members.lookup "property" = function.property?.map Json.string ∧
      (function.looksAtZoom = true ↔ WritesZoom members) := by
  obtain ⟨type, name, htype, hname, _, hfunction⟩ := ofMembers_eq_ok_iff.mp hread
  rw [propertyName_eq_ok_iff] at hname
  rcases hfunction with ⟨rfl, property, rfl, rfl⟩ | ⟨hidentity, found, base', hfound, _, hfunction⟩
  · refine ⟨hname, ?_⟩
    simp [WritesZoom, looksAtZoom, hname, functionType_eq_identity htype]
  · have hwritten : members.lookup "type" ≠ some (.string "identity") := by
      intro heq
      rw [heq] at htype
      exact hidentity (Except.ok.inj htype).symm
    obtain ⟨_, hstops⟩ := stops_eq_ok_iff.mp hfound
    have hcomposite : WritesZoom members ↔ name = none ∨ isComposite found = true := by
      simp only [WritesZoom, hname, hstops, Option.some.injEq, writtenStops_injective.eq_iff]
      simp [hwritten]
    rw [hcomposite]
    rcases ofStops_eq_ok_iff.mp hfunction with ⟨property, _, _, rfl, hfound, _, _, rfl⟩ |
      ⟨property, body, rfl, hfound, _, rfl⟩ | ⟨numeric, rfl, hfound, _, _, rfl⟩
    all_goals exact ⟨hname, by simp [looksAtZoom, hfound]⟩

/-! ## Functions -/

/-- An expression depends on what a function with some members is written to depend on. -/
structure DependsAsWritten (members : List (String × Json)) (expr : Expr) : Prop where
  /-- It is constant in the feature unless there is a property. -/
  feature : expr.isFeatureConstant = true ↔ members.lookup "property" = none
  /-- It is constant in the zoom level unless it is written to depend on it. -/
  zoom : expr.isZoomConstant = true ↔ ¬WritesZoom members
  /-- It depends on the zoom level as a curve. -/
  curve : WritesZoom members → ∃ curve, expr.IsZoomCurve curve
  /-- The outputs of a curve over the zoom level alone are constants. -/
  constants : members.lookup "property" = none →
    ∀ output ∈ expr.outputs, ∃ value, output = .literal value
  /-- Of the feature it reads the property and nothing else. -/
  reads : ∀ node ∈ expr.nodes, node.readsFeature = true →
    ∃ name, members.lookup "property" = some (.string name) ∧ node = propertyExpr name

theorem HasTree.dependsAsWritten (h : HasTree type function expr)
    (hread : read (.object members) spec = .ok function) : DependsAsWritten members expr := by
  obtain ⟨hproperty, hzoom⟩ := inputs_of_read hread
  have hnone : members.lookup "property" = none ↔ function.property? = none := by
    rw [hproperty, Option.map_eq_none_iff]
  refine ⟨?_, ?_, ?_, ?_, ?_⟩
  · rw [h.isFeatureConstant_iff, hnone]
  · rw [h.isZoomConstant_iff, ← hzoom, Bool.not_eq_true]
  · exact fun hwritten => h.isZoomCurve (hzoom.mpr hwritten)
  · intro habsent output houtput
    cases h with
    | identity | overProperty | overBoth => exact absurd (hnone.mp habsent) (by simp [property?])
    | overZoom root data =>
      rw [root.outputs_eq] at houtput
      obtain ⟨_, _, value, _, rfl⟩ := data.exists_of_mem_right houtput
      exact ⟨value, rfl⟩
  · intro node hnode hreads
    obtain ⟨name, hname, rfl⟩ := h.eq_of_readsFeature hnode hreads
    exact ⟨name, by rw [hproperty, hname]; rfl, rfl⟩

/-- **A stop function depends on what it is written to depend on, and its outputs are data.** Its
tree is one of the grammar, in which outputs stand as constants only. Where the property allows the
dependence and has a default or needs none, it compiles. -/
theorem tree_as_written {typed : Typed} (hread : read (.object members) spec = .ok function)
    (hcheck : function.expression.check (some spec.type) = .ok typed) :
    HasTree spec.type function typed.expr ∧ DependsAsWritten members typed.expr ∧
      ∀ options default, (members.lookup "property" = none ∨ spec.featureDependent = true) →
        (WritesZoom members → spec.zoomDependent = true) →
        (PropertyExpression.chosenDefault spec options).mapM
          (PropertyExpression.defaultValue spec.type) = .ok default →
          ∃ compiled, PropertyExpression.compile function.expression spec options = .ok compiled ∧
            compiled.expr = typed.expr := by
  have hkind : ∀ name kind, function = .identity name kind → kind = spec.kind := by
    rintro name kind rfl
    exact kind_of_identity hread
  have htree := hasTree_of_spells hkind ⟨typed, hcheck, rfl⟩
  have hdepends := htree.dependsAsWritten hread
  refine ⟨htree, hdepends, fun options default hfeature hzoom hdefault => ?_⟩
  refine PropertyExpression.exists_compile hcheck (hfeature.imp_left hdepends.feature.mpr) ?_
    hdefault
  by_cases hwritten : WritesZoom members
  · exact Or.inr ⟨hzoom hwritten, hdepends.curve hwritten⟩
  · exact Or.inl (hdepends.zoom.mpr hwritten)

/-- Two outputs that look like expressions. -/
def callStops : List (Json × Json) :=
  [(.number (.integer 0), call "get" [.string "x"]), (.number (.integer 10), call "zoom" [])]

/-- A function of the zoom level whose outputs look like expressions reads no property. -/
theorem tree_as_written_calls :
    ∃ function typed compiled, read (.object [("stops", writtenStops callStops)])
        { kind := .array } = .ok function ∧
      function.expression.check (some (.array .value none)) = .ok typed ∧
      (∀ node ∈ typed.expr.nodes, node.readsFeature = false) ∧
      (∀ output ∈ typed.expr.outputs, ∃ value, output = .literal value) ∧
      PropertyExpression.compile function.expression { kind := .array } {} = .ok compiled ∧
      compiled.expr = typed.expr := by
  let function : StopFunction := .overZoom .interval
    [(.integer 0, call "get" [.string "x"]), (.integer 10, call "zoom" [])]
  have hread : read (.object [("stops", writtenStops callStops)]) { kind := .array } =
      .ok function := rfl
  obtain ⟨typed, hcheck⟩ := Except.exists_of_isOk
    (x := function.expression.check (some (.array .value none))) rfl
  obtain ⟨_, hdepends, hcompiles⟩ := tree_as_written hread hcheck
  obtain ⟨compiled, hcompile, hexpr⟩ := hcompiles {} none (Or.inl rfl) (fun _ => rfl) rfl
  have hconstant := hdepends.feature.mpr rfl
  rw [Expr.isFeatureConstant, Expr.free_iff] at hconstant
  exact ⟨function, typed, compiled, hread, hcheck, hconstant, hdepends.constants rfl, hcompile,
    hexpr⟩

end StopFunction

end Symbology
