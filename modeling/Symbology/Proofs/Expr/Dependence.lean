import Symbology.Expr.Eval
import Symbology.Proofs.Expr.Nodes

set_option autoImplicit false

/-! # Outcomes depend on what is read

The outcome of a node depends on the outcomes of its children, and on the zoom level and the feature
only if the node itself reads them (`eval_congr`). So two contexts that agree on all that the nodes
of an expression read give it the same outcome (`eval_eq_of_free`). -/

namespace Symbology

/-! ## What a context answers -/

namespace Context

variable {c₁ c₂ : Context}

theorem zoomOutcome_congr (h : c₁.zoom = c₂.zoom) : c₁.zoomOutcome = c₂.zoomOutcome := by
  simp only [zoomOutcome, h]

theorem idValue_congr (h : c₁.feature = c₂.feature) : c₁.idValue = c₂.idValue := by
  simp only [idValue, h]

theorem geometryValue_congr (h : c₁.feature = c₂.feature) :
    c₁.geometryValue = c₂.geometryValue := by
  simp only [geometryValue, h]

theorem properties_congr (h : c₁.feature = c₂.feature) : c₁.properties = c₂.properties := by
  simp only [properties, h]

theorem propertyValue_congr (h : c₁.feature = c₂.feature) :
    c₁.propertyValue = c₂.propertyValue := by
  funext key
  simp only [propertyValue, properties_congr h]

theorem hasProperty_congr (h : c₁.feature = c₂.feature) : c₁.hasProperty = c₂.hasProperty := by
  funext key
  simp only [hasProperty, properties_congr h]

end Context

namespace Expr

/-! ## Outcomes of lists -/

section Lists

variable (context : Context)

theorem evalArgs_eq_map (args : List Expr) : evalArgs context args = args.map (eval context) := by
  induction args with
  | nil => rfl
  | cons arg rest ih => rw [evalArgs, List.map_cons, ih]

theorem evalPairs_eq_map (branches : List (Expr × Expr)) :
    evalPairs context branches =
      branches.map (fun branch => (eval context branch.1, eval context branch.2)) := by
  induction branches with
  | nil => rfl
  | cons branch rest ih => rw [evalPairs, List.map_cons, ih]

theorem evalBranches_eq_map (branches : List (List Value × Expr)) :
    evalBranches context branches =
      branches.map (fun branch => (branch.1, eval context branch.2)) := by
  induction branches with
  | nil => rfl
  | cons branch rest ih => rw [evalBranches, List.map_cons, ih]

theorem evalStops_eq_map (stops : List (Float × Expr)) :
    evalStops context stops = stops.map (fun stop => (stop.1, eval context stop.2)) := by
  induction stops with
  | nil => rfl
  | cons stop rest ih => rw [evalStops, List.map_cons, ih]

end Lists

/-! ## Two contexts -/

section Agreement

variable {c₁ c₂ : Context}

theorem evalArgs_congr {args : List Expr} (h : ∀ arg ∈ args, eval c₁ arg = eval c₂ arg) :
    evalArgs c₁ args = evalArgs c₂ args := by
  rw [evalArgs_eq_map, evalArgs_eq_map]
  exact List.map_congr_left h

/-- The branches of `case` have equal outcomes if all their conditions and outputs do. -/
theorem evalPairs_congr {branches : List (Expr × Expr)}
    (h : ∀ branch ∈ branches,
      eval c₁ branch.1 = eval c₂ branch.1 ∧ eval c₁ branch.2 = eval c₂ branch.2) :
    evalPairs c₁ branches = evalPairs c₂ branches := by
  rw [evalPairs_eq_map, evalPairs_eq_map]
  refine List.map_congr_left (fun branch hmem => ?_)
  rw [(h branch hmem).1, (h branch hmem).2]

theorem evalBranches_congr {branches : List (List Value × Expr)}
    (h : ∀ branch ∈ branches, eval c₁ branch.2 = eval c₂ branch.2) :
    evalBranches c₁ branches = evalBranches c₂ branches := by
  rw [evalBranches_eq_map, evalBranches_eq_map]
  refine List.map_congr_left (fun branch hmem => ?_)
  rw [h branch hmem]

theorem evalStops_congr {stops : List (Float × Expr)}
    (h : ∀ stop ∈ stops, eval c₁ stop.2 = eval c₂ stop.2) :
    evalStops c₁ stops = evalStops c₂ stops := by
  rw [evalStops_eq_map, evalStops_eq_map]
  refine List.map_congr_left (fun stop hmem => ?_)
  rw [h stop hmem]

/-- **The outcome of a node depends on its children and on what the node itself reads.** -/
theorem eval_congr {expr : Expr} (hzoom : expr.readsZoom = true → c₁.zoom = c₂.zoom)
    (hfeature : expr.readsFeature = true → c₁.feature = c₂.feature)
    (h : ∀ child ∈ expr.children, eval c₁ child = eval c₂ child) : eval c₁ expr = eval c₂ expr := by
  cases expr with
  | literal value => rfl
  | get key =>
    simp only [eval]
    rw [h key List.mem_cons_self, Context.propertyValue_congr (hfeature rfl)]
  | has key =>
    simp only [eval]
    rw [h key List.mem_cons_self, Context.hasProperty_congr (hfeature rfl)]
  | properties =>
    simp only [eval]
    rw [Context.properties_congr (hfeature rfl)]
  | id =>
    simp only [eval]
    rw [Context.idValue_congr (hfeature rfl)]
  | geometryType =>
    simp only [eval]
    rw [Context.geometryValue_congr (hfeature rfl)]
  | zoom => exact Context.zoomOutcome_congr (hzoom rfl)
  | arithmetic _ args | all args | any args | coalesce args | assertion _ args
  | conversion _ args | rgba args =>
    simp only [children] at h
    simp only [eval]
    rw [evalArgs_congr h]
  | comparison relation left right =>
    simp only [eval]
    rw [h left List.mem_cons_self, h right (List.mem_cons_of_mem _ List.mem_cons_self)]
  | not arg =>
    simp only [eval]
    rw [h arg List.mem_cons_self]
  | case branches otherwise =>
    simp only [children, List.forall_mem_append, List.forall_mem_flatMap, List.forall_mem_cons] at h
    simp only [eval]
    rw [evalPairs_congr (fun branch hmem => ⟨(h.1 branch hmem).1, (h.1 branch hmem).2.1⟩), h.2.1]
  | select input branches otherwise =>
    simp only [children, List.forall_mem_append, List.forall_mem_map, List.forall_mem_cons] at h
    simp only [eval]
    rw [h.1, evalBranches_congr h.2.1, h.2.2.1]
  | step input first stops =>
    simp only [children, List.forall_mem_map, List.forall_mem_cons] at h
    simp only [eval]
    rw [h.1, h.2.1, evalStops_congr h.2.2]
  | interpolate interpolation input stops =>
    simp only [children, List.forall_mem_map, List.forall_mem_cons] at h
    simp only [eval]
    rw [h.1, evalStops_congr h.2]

/-- **An expression without readers has one outcome in all contexts that agree on the rest.** What
no node of it reads may differ: the zoom level if `reads` covers it, and the feature if `reads`
covers all that reads the feature. -/
theorem eval_eq_of_free {reads : Expr → Bool}
    (hzoom : ∀ node, node.readsZoom = true → reads node = false → c₁.zoom = c₂.zoom)
    (hfeature : ∀ node, node.readsFeature = true → reads node = false → c₁.feature = c₂.feature)
    {expr : Expr} (hfree : free reads expr = true) : eval c₁ expr = eval c₂ expr := by
  induction expr using induction_children with
  | node expr ih =>
    have hself : reads expr = false := (free_iff reads expr).mp hfree expr expr.self_mem_nodes
    -- the node reads nothing that differs, and neither do the nodes of its children
    refine eval_congr (fun h => hzoom expr h hself) (fun h => hfeature expr h hself) ?_
    intro child hchild
    exact ih child hchild (free_child reads hchild hfree)

/-- An expression that is constant in the feature has one outcome for all features. -/
theorem eval_eq_of_isFeatureConstant (hzoom : c₁.zoom = c₂.zoom) {expr : Expr}
    (h : expr.isFeatureConstant = true) : eval c₁ expr = eval c₂ expr := by
  refine eval_eq_of_free (fun _ _ _ => hzoom) ?_ h
  intro node hreads hnot
  rw [hreads] at hnot
  contradiction

/-- An expression that is constant in the zoom level has one outcome for all zoom levels. -/
theorem eval_eq_of_isZoomConstant (hfeature : c₁.feature = c₂.feature) {expr : Expr}
    (h : expr.isZoomConstant = true) : eval c₁ expr = eval c₂ expr := by
  refine eval_eq_of_free ?_ (fun _ _ _ => hfeature) h
  intro node hreads hnot
  rw [hreads] at hnot
  contradiction

end Agreement

end Expr

end Symbology
