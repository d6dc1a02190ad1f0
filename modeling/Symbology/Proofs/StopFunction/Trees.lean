import Symbology.Proofs.Related
import Symbology.Proofs.StopFunction.Spelling
import Symbology.Proofs.Typing.WellFormed

set_option autoImplicit false

/-! # The trees of stop functions

`HasTree` is the grammar of the trees that stop functions have: curves over the zoom level, curves
and choices over the property, and guards around it. Whatever an author writes as an output stands
in a tree as a constant and is never run as an expression. All that a stop function spells is such a
tree (`hasTree_of_spells`), and its nodes are of few kinds (`HasTree.parts`). -/

namespace Symbology

namespace Expr

/-- A curve over an input, with its outputs. -/
inductive CurveOver (input : Expr) : List Expr → Expr → Prop
  | step {first : Expr} {stops : List (Float × Expr)} :
      CurveOver input (first :: stops.map (·.2)) (.step input first stops)
  | interpolate {interpolation : Interpolation} {stops : List (Float × Expr)} :
      CurveOver input (stops.map (·.2)) (.interpolate interpolation input stops)

theorem CurveOver.children_eq {input expr : Expr} {outputs : List Expr}
    (h : CurveOver input outputs expr) : expr.children = input :: outputs := by
  cases h <;> rfl

end Expr

namespace StopFunction

open Symbology.Expr (CurveOver forall_nodes_of_children)

variable {type : ValueType} {expr : Expr} {name : String} {body : Body} {function : StopFunction}

/-! ## Grammar -/

/-- The expression is the constant that an output stands for. -/
def IsQuoted (type : ValueType) (output : Json) (expr : Expr) : Prop :=
  ∃ value, output.Denotes type value ∧ expr = .literal value

/-- The trees of the functions of a property. -/
inductive Body.HasTree (type : ValueType) (name : String) : Body → Expr → Prop
  | ordered {curve : Curve} {stops : List NumericStop} {outputs : List Expr} {expr : Expr}
      (root : CurveOver (Typed.guard .number (propertyExpr name)) outputs expr)
      (data : List.Forall₂ (IsQuoted type) (stops.map (·.2)) outputs) :
      Body.HasTree type name (.ordered curve stops) expr
  | categorical {stops : List (Json × Json)} {fallback : Json}
      {branches : List (List Value × Expr)} {otherwise : Expr}
      (data : List.Forall₂ (IsQuoted type) ((firstOfEach [] stops).map (·.2)) (branches.map (·.2)))
      (otherwiseData : IsQuoted type fallback otherwise) :
      Body.HasTree type name (.categorical stops fallback)
        (.select (propertyExpr name) branches otherwise)

/-- **The trees of stop functions** with values of a type. -/
inductive HasTree (type : ValueType) : StopFunction → Expr → Prop
  | identity {name : String} {kind : PropertyKind} :
      HasTree type (.identity name kind) (Typed.guard type (propertyExpr name))
  | overZoom {curve : Curve} {stops : List NumericStop} {outputs : List Expr} {expr : Expr}
      (root : CurveOver .zoom outputs expr)
      (data : List.Forall₂ (IsQuoted type) (stops.map (·.2)) outputs) :
      HasTree type (.overZoom curve stops) expr
  | overProperty {name : String} {body : Body} {expr : Expr}
      (tree : Body.HasTree type name body expr) : HasTree type (.overProperty name body) expr
  | overBoth {name : String} {curve : Curve} {groups : List Group} {outputs : List Expr}
      {expr : Expr} (nonempty : groups ≠ []) (root : CurveOver .zoom outputs expr)
      (trees : List.Forall₂ (fun group output => Body.HasTree type name group.body output) groups
        outputs) :
      HasTree type (.overBoth name curve groups) expr

/-! ## What stop functions spell -/

theorem isQuoted_of_spells {output : Json} (h : (quoted output).Spells type expr) :
    IsQuoted type output expr := by
  obtain ⟨value, hvalue, _, rfl⟩ := spells_quoted.mp h
  exact ⟨value, hvalue, rfl⟩

/-- A curve is spelled over what its input spells, and its outputs are spelled by those of the
stops. -/
theorem curveOver_of_spells {curve : Curve} {input : Json} {stops : List (Json.Number × Json)}
    (h : (curve.expression input stops).Spells type expr) :
    stops ≠ [] ∧ ∃ input' outputs, input.Spells .number input' ∧ CurveOver input' outputs expr ∧
      List.Forall₂ (fun stop output => stop.2.Spells type output) stops outputs := by
  have houtputs : ∀ {others : List (Json.Number × Json)} {found : List (Float × Expr)},
      SpellStops type others found →
        List.Forall₂ (fun stop output => stop.2.Spells type output) others (found.map (·.2)) := by
    intro others found hspell
    exact List.forall₂_map_right_iff.mpr (hspell.imp (fun _ _ hstop => hstop.2))
  cases curve with
  | interval =>
    cases stops with
    | nil => exact absurd h not_spells_interval_nil
    | cons stop rest =>
      obtain ⟨input', first, found, hinput, hfirst, hrest, _, rfl⟩ := spells_interval.mp h
      exact ⟨by simp, input', _, hinput, .step, .cons hfirst (houtputs hrest)⟩
  | exponential base =>
    obtain ⟨hne, _, input', found, hinput, hstops, _, rfl⟩ := spells_exponential.mp h
    exact ⟨hne, input', _, hinput, .interpolate, houtputs hstops⟩

/-- The outputs of a curve with quoted outputs are constants. -/
theorem data_of_spells {α : Type} {stops : List (α × Json)} {outputs : List Expr}
    (h : List.Forall₂ (fun stop output => stop.2.Spells type output) (quotedOutputs stops)
      outputs) : List.Forall₂ (IsQuoted type) (stops.map (·.2)) outputs := by
  rw [quotedOutputs, List.forall₂_map_left_iff] at h
  exact List.forall₂_map_left_iff.mpr (h.imp (fun _ _ hstop => isQuoted_of_spells hstop))

/-- A function of a property spells a tree of the grammar. -/
theorem Body.hasTree_of_spells (h : (body.expression name).Spells type expr) :
    Body.HasTree type name body expr := by
  cases body with
  | ordered curve stops =>
    obtain ⟨_, input, outputs, hinput, hroot, houtputs⟩ := curveOver_of_spells h
    obtain rfl := spells_numericProperty.mp hinput
    exact .ordered hroot (data_of_spells houtputs)
  | categorical stops fallback =>
    obtain ⟨_, branches, otherwise, hbranches, _, hfallback, rfl⟩ := spells_match.mp h
    refine .categorical (data_of_spells ?_) (isQuoted_of_spells hfallback)
    exact List.forall₂_map_right_iff.mpr (hbranches.imp (fun _ _ hbranch => hbranch.2))

/-- **Every stop function spells a tree of the grammar.** -/
theorem hasTree_of_spells {spec : PropertySpec}
    (hkind : ∀ name kind, function = .identity name kind → kind = spec.kind)
    (h : function.expression.Spells spec.type expr) : HasTree spec.type function expr := by
  cases function with
  | identity name kind =>
    obtain rfl := hkind name kind rfl
    obtain rfl := spells_identity.mp h
    exact .identity
  | overZoom curve stops =>
    obtain ⟨_, input, outputs, hinput, hroot, houtputs⟩ := curveOver_of_spells h
    obtain rfl := spells_zoomLevel.mp hinput
    exact .overZoom hroot (data_of_spells houtputs)
  | overProperty name body => exact .overProperty (Body.hasTree_of_spells h)
  | overBoth name curve groups =>
    obtain ⟨hne, input, outputs, hinput, hroot, houtputs⟩ := curveOver_of_spells h
    obtain rfl := spells_zoomLevel.mp hinput
    rw [List.forall₂_map_left_iff] at houtputs
    refine .overBoth (fun hnil => hne (by rw [hnil, List.map_nil])) hroot ?_
    exact houtputs.imp (fun _ _ hgroup => Body.hasTree_of_spells hgroup)

/-! ## Nodes -/

/-- The property that a function looks at. -/
def property? : StopFunction → Option String
  | .identity name _ | .overProperty name _ | .overBoth name _ _ => some name
  | .overZoom _ _ => none

/-- The kinds of nodes in the tree of a function that looks at a property, other than the zoom
level. -/
inductive IsPart (name? : Option String) : Expr → Prop
  | literal (value : Value) : IsPart name? (.literal value)
  | property {name : String} (named : name? = some name) : IsPart name? (propertyExpr name)
  | guard {name : String} (target : ValueType) (named : name? = some name) :
      IsPart name? (Typed.guard target (propertyExpr name))
  | curve {input expr : Expr} {outputs : List Expr} (root : CurveOver input outputs expr) :
      IsPart name? expr
  | choice {input otherwise : Expr} {branches : List (List Value × Expr)} :
      IsPart name? (.select input branches otherwise)

section IsPart

variable {name? : Option String} {node : Expr}

/-- The only node that reads the feature is the property itself. -/
theorem IsPart.eq_of_readsFeature (h : IsPart name? node) (hreads : node.readsFeature = true) :
    ∃ name, name? = some name ∧ node = propertyExpr name := by
  cases h with
  | property hnamed => exact ⟨_, hnamed, rfl⟩
  | guard target => cases target <;> contradiction
  | curve hroot => cases hroot <;> contradiction
  | literal | choice => contradiction

theorem IsPart.readsZoom_eq_false (h : IsPart name? node) : node.readsZoom = false := by
  cases h with
  | guard target => cases target <;> rfl
  | curve hroot => cases hroot <;> rfl
  | literal | property | choice => rfl

theorem IsQuoted.parts {output : Json} (h : IsQuoted type output expr) :
    ∀ node ∈ expr.nodes, IsPart name? node := by
  obtain ⟨value, _, rfl⟩ := h
  exact forall_nodes_of_children (.literal value) (by simp [Expr.children])

theorem parts_propertyExpr (named : name? = some name) :
    ∀ node ∈ (propertyExpr name).nodes, IsPart name? node := by
  have hkey : ∀ node ∈ (Expr.literal (.string name)).nodes, IsPart name? node :=
    forall_nodes_of_children (.literal _) (by simp [Expr.children])
  exact forall_nodes_of_children (.property named)
    (by simpa [propertyExpr, Expr.children] using hkey)

theorem parts_guard (target : ValueType) (named : name? = some name) :
    ∀ node ∈ (Typed.guard target (propertyExpr name)).nodes, IsPart name? node := by
  refine forall_nodes_of_children (.guard target named) ?_
  rw [Expr.children_guard, List.forall_mem_singleton]
  exact parts_propertyExpr named

/-- Outputs that are constants are parts of any tree. -/
theorem parts_data {written : List Json} {outputs : List Expr}
    (h : List.Forall₂ (IsQuoted type) written outputs) :
    ∀ output ∈ outputs, ∀ node ∈ output.nodes, IsPart name? node := by
  intro output houtput
  obtain ⟨_, _, hquoted⟩ := h.exists_of_mem_right houtput
  exact hquoted.parts

end IsPart

/-- The nodes of a function of a property. -/
theorem Body.HasTree.parts (h : Body.HasTree type name body expr) :
    ∀ node ∈ expr.nodes, IsPart (some name) node := by
  cases h with
  | ordered root data =>
    refine forall_nodes_of_children (.curve root) ?_
    rw [root.children_eq, List.forall_mem_cons]
    exact ⟨parts_guard .number rfl, parts_data data⟩
  | categorical data otherwiseData =>
    refine forall_nodes_of_children .choice ?_
    rw [Expr.children, List.forall_mem_cons, List.forall_mem_append, List.forall_mem_singleton]
    exact ⟨parts_propertyExpr rfl, parts_data data, otherwiseData.parts⟩

/-- **The nodes of a stop function** are the zoom level and parts of few kinds. -/
theorem HasTree.parts (h : HasTree type function expr) :
    ∀ node ∈ expr.nodes, node = .zoom ∨ IsPart function.property? node := by
  have hlevel : ∀ node ∈ Expr.zoom.nodes, node = .zoom ∨ IsPart function.property? node :=
    forall_nodes_of_children (Or.inl rfl) (by simp [Expr.children])
  cases h with
  | identity => exact fun node hnode => Or.inr (parts_guard _ rfl node hnode)
  | overZoom root data =>
    refine forall_nodes_of_children (Or.inr (.curve root)) ?_
    rw [root.children_eq, List.forall_mem_cons]
    refine ⟨hlevel, fun output houtput node hnode => Or.inr ?_⟩
    exact parts_data data output houtput node hnode
  | overProperty tree => exact fun node hnode => Or.inr (tree.parts node hnode)
  | overBoth _ root trees =>
    refine forall_nodes_of_children (Or.inr (.curve root)) ?_
    rw [root.children_eq, List.forall_mem_cons]
    refine ⟨hlevel, fun output houtput node hnode => Or.inr ?_⟩
    obtain ⟨group, _, htree⟩ := trees.exists_of_mem_right houtput
    exact htree.parts node hnode

/-- The function of a property does not read the zoom level. -/
theorem Body.HasTree.isZoomConstant (h : Body.HasTree type name body expr) :
    expr.isZoomConstant = true := by
  rw [Expr.isZoomConstant, Expr.free_iff]
  exact fun node hnode => (h.parts node hnode).readsZoom_eq_false

end StopFunction

end Symbology
