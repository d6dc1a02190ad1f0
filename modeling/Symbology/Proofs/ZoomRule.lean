import Symbology.Proofs.Expr.Errors
import Symbology.Proofs.PropertyExpression
import Symbology.Proofs.Typing.WellFormed

set_option autoImplicit false

/-! # The rule for the zoom level

A compiled expression reads the zoom level not at all, or at one place: as the input of a `step` or
`interpolate` at the root. This is what compiling makes sure of and all that it asks for
(`PropertyExpression.zoom_rule`). The proof counts the nodes that read the zoom level. -/

namespace Symbology

namespace Expr

/-! ## Counting readers -/

/-- The readers of an expression are the node, if it is one, and those of its children. -/
theorem countP_nodes (reads : Expr → Bool) (expr : Expr) :
    expr.nodes.countP reads =
      (expr.children.map (fun child => child.nodes.countP reads)).sum +
        if reads expr = true then 1 else 0 := by
  rw [nodes_eq, List.countP_cons, List.countP_flatMap]
  rfl

theorem isZoomConstant_iff (expr : Expr) :
    expr.isZoomConstant = true ↔ expr.nodes.countP readsZoom = 0 := by
  rw [isZoomConstant, free_iff, List.countP_eq_zero]
  simp only [Bool.not_eq_true]

theorem all_isZoomConstant_iff (exprs : List Expr) :
    exprs.all (free readsZoom) = true ↔
      (exprs.map (fun expr => expr.nodes.countP readsZoom)).sum = 0 := by
  induction exprs with
  | nil => simp
  | cons expr rest ih =>
    rw [List.all_cons, List.map_cons, List.sum_cons, Nat.add_eq_zero_iff, ← ih, Bool.and_eq_true]
    exact and_congr_left (fun _ => isZoomConstant_iff expr)

theorem countP_zoom : zoom.nodes.countP readsZoom = 1 := by
  rw [countP_nodes]
  rfl

/-! ## Curves over the zoom level -/

/-- The root is a `step` or `interpolate` whose input is the zoom level, and this is its curve. -/
inductive RootCurve : Expr → ZoomCurve → Prop
  | step {first : Expr} {stops : List (Float × Expr)} :
      RootCurve (.step .zoom first stops) ⟨.step, stops.map (·.1)⟩
  | interpolate {interpolation : Interpolation} {stops : List (Float × Expr)} :
      RootCurve (.interpolate interpolation .zoom stops) ⟨interpolation, stops.map (·.1)⟩

/-- The zoom level is read at one place, and this is the input of the root. -/
structure IsZoomCurve (expr : Expr) (curve : ZoomCurve) : Prop where
  root : RootCurve expr curve
  single : expr.nodes.countP readsZoom = 1

/-- **A curve is found exactly where the zoom level is read once, at the root.** -/
theorem zoomCurve_eq_some_iff {expr : Expr} {curve : ZoomCurve} :
    expr.zoomCurve? = some curve ↔ expr.IsZoomCurve curve := by
  have hstep : ∀ first stops,
      (isZoomConstant first && freeStops readsZoom stops) = true ↔
        (step zoom first stops).nodes.countP readsZoom = 1 := by
    intro first stops
    rw [countP_nodes, Bool.and_eq_true, isZoomConstant_iff, freeStops_eq_all,
      all_isZoomConstant_iff]
    simp only [children, List.map_cons, List.sum_cons, countP_zoom, readsZoom]
    simp
  have hinterpolate : ∀ interpolation stops, freeStops readsZoom stops = true ↔
      (interpolate interpolation zoom stops).nodes.countP readsZoom = 1 := by
    intro interpolation stops
    rw [countP_nodes, freeStops_eq_all, all_isZoomConstant_iff]
    simp only [children, List.map_cons, List.sum_cons, countP_zoom, readsZoom]
    simp
  constructor
  · intro h
    unfold zoomCurve? at h
    split at h
    next first stops =>
      split at h
      next hfree =>
        obtain rfl := Option.some.inj h
        exact ⟨.step, (hstep first stops).mp hfree⟩
      next => contradiction
    next interpolation stops =>
      split at h
      next hfree =>
        obtain rfl := Option.some.inj h
        exact ⟨.interpolate, (hinterpolate interpolation stops).mp hfree⟩
      next => contradiction
    next => contradiction
  · rintro ⟨hroot, hsingle⟩
    cases hroot with
    | step => exact if_pos ((hstep _ _).mpr hsingle)
    | interpolate => exact if_pos ((hinterpolate _ _).mpr hsingle)

/-- A curve is constant in the zoom level nowhere. -/
theorem IsZoomCurve.not_isZoomConstant {expr : Expr} {curve : ZoomCurve}
    (h : expr.IsZoomCurve curve) : expr.isZoomConstant = false := by
  rw [← Bool.not_eq_true, isZoomConstant_iff, h.single]
  exact Nat.one_ne_zero

theorem zoomCurve_eq_none_of_isZoomConstant {expr : Expr} (h : expr.isZoomConstant = true) :
    expr.zoomCurve? = none := by
  cases hcurve : expr.zoomCurve? with
  | none => rfl
  | some curve =>
    rw [(zoomCurve_eq_some_iff.mp hcurve).not_isZoomConstant] at h
    contradiction

/-- The labels of a well-formed curve ascend. -/
theorem RootCurve.ascending {expr : Expr} {curve : ZoomCurve} (h : expr.RootCurve curve)
    (hformed : expr.WellFormed) : Typing.AscendingLabels curve.labels := by
  cases h with
  | step => exact hformed
  | interpolate => exact hformed.2

end Expr

namespace PropertyExpression

open Symbology.Expr

variable {json : Json} {spec : PropertySpec} {options : CompileOptions}
  {compiled : PropertyExpression} {context : Context}

/-! ## Compiled expressions -/

/-- A compiled expression that reads the zoom level is a curve over it, with ascending labels. -/
theorem isZoomCurve_of_compile (h : compile json spec options = .ok compiled)
    (hreads : compiled.expr.isZoomConstant = false) :
    ∃ curve, compiled.expr.IsZoomCurve curve ∧ curve.labels.Pairwise (· < ·) := by
  obtain ⟨typed, default, hcheck, hallowed, _, rfl⟩ := compile_eq_ok_iff.mp h
  have hsome : typed.expr.zoomCurve?.isSome = true := by
    rcases (allowed_eq_ok_iff.mp hallowed).2 with hconstant | ⟨_, hsome⟩
    · exact absurd (hreads.symm.trans hconstant) Bool.false_ne_true
    · exact hsome
  obtain ⟨curve, hcurve⟩ := Option.isSome_iff_exists.mp hsome
  have hzoom := zoomCurve_eq_some_iff.mp hcurve
  have hformed := Json.wellFormed_of_check hcheck typed.expr typed.expr.self_mem_nodes
  exact ⟨curve, hzoom, (hzoom.root.ascending hformed).ascending⟩

/-- A checked curve over the zoom level is compiled, if the property allows what it reads and has a
default or needs none. -/
theorem compile_of_isZoomCurve {typed : Typed} {curve : ZoomCurve} {default : Option Value}
    (hcheck : json.check (some spec.type) = .ok typed) (hcurve : typed.expr.IsZoomCurve curve)
    (hfeature : typed.expr.isFeatureConstant = true ∨ spec.featureDependent = true)
    (hzoom : spec.zoomDependent = true)
    (hdefault : (chosenDefault spec options).mapM (defaultValue spec.type) = .ok default) :
    ∃ compiled, compile json spec options = .ok compiled ∧ compiled.expr = typed.expr := by
  have hsome : typed.expr.zoomCurve?.isSome = true := by
    rw [zoomCurve_eq_some_iff.mpr hcurve]
    rfl
  have hallowed := allowed_eq_ok_iff.mpr ⟨hfeature, Or.inr ⟨hzoom, hsome⟩⟩
  exact ⟨_, compile_eq_ok_iff.mpr ⟨typed, default, hcheck, hallowed, hdefault, rfl⟩, rfl⟩

/-- What is checked is compiled if it reads the zoom level only as a curve, and the property allows
what it reads and has a default or needs none. -/
theorem exists_compile {typed : Typed} {default : Option Value}
    (hcheck : json.check (some spec.type) = .ok typed)
    (hfeature : typed.expr.isFeatureConstant = true ∨ spec.featureDependent = true)
    (hzoom : typed.expr.isZoomConstant = true ∨
      spec.zoomDependent = true ∧ ∃ curve, typed.expr.IsZoomCurve curve)
    (hdefault : (chosenDefault spec options).mapM (defaultValue spec.type) = .ok default) :
    ∃ compiled, compile json spec options = .ok compiled ∧ compiled.expr = typed.expr := by
  rcases hzoom with hconstant | ⟨hallowed, curve, hcurve⟩
  · have hallowed := allowed_eq_ok_iff.mpr ⟨hfeature, Or.inl hconstant⟩
    exact ⟨_, compile_eq_ok_iff.mpr ⟨typed, default, hcheck, hallowed, hdefault, rfl⟩, rfl⟩
  · exact compile_of_isZoomCurve hcheck hcurve hfeature hallowed hdefault

/-- **The rule for the zoom level.** A compiled expression either never reads the zoom level, or
reads it once, as the input of the root, and says so with its curve. Nothing more is asked of a
curve over the zoom level. And a compiled expression misses the zoom level only if it is such a
curve and there is no zoom level. -/
theorem zoom_rule (json : Json) (spec : PropertySpec) (options : CompileOptions) :
    (∀ compiled, compile json spec options = .ok compiled →
      (compiled.expr.nodes.countP readsZoom = 0 ∧ compiled.expr.isZoomConstant = true ∧
        compiled.expr.zoomCurve? = none) ∨
      ∃ curve, compiled.expr.IsZoomCurve curve ∧ compiled.expr.isZoomConstant = false ∧
        compiled.expr.zoomCurve? = some curve ∧ curve.labels.Pairwise (· < ·)) ∧
    (∀ typed curve default, json.check (some spec.type) = .ok typed →
      typed.expr.IsZoomCurve curve →
      (typed.expr.isFeatureConstant = true ∨ spec.featureDependent = true) →
      spec.zoomDependent = true →
      (chosenDefault spec options).mapM (defaultValue spec.type) = .ok default →
        ∃ compiled, compile json spec options = .ok compiled ∧ compiled.expr = typed.expr) ∧
    ∀ compiled context e, compile json spec options = .ok compiled →
      compiled.evaluate context = .error e → e.kind = .missingZoom →
        context.zoom = none ∧ ∃ curve, compiled.expr.IsZoomCurve curve := by
  refine ⟨fun compiled h => ?_, ?_, fun compiled context e h heval hkind => ?_⟩
  · cases hreads : compiled.expr.isZoomConstant with
    | true =>
      refine Or.inl ⟨(isZoomConstant_iff _).mp hreads, rfl, ?_⟩
      exact zoomCurve_eq_none_of_isZoomConstant hreads
    | false =>
      obtain ⟨curve, hcurve, hlabels⟩ := isZoomCurve_of_compile h hreads
      exact Or.inr ⟨curve, hcurve, rfl, zoomCurve_eq_some_iff.mpr hcurve, hlabels⟩
  · intro typed curve default hcheck hcurve hfeature hzoom hdefault
    exact compile_of_isZoomCurve hcheck hcurve hfeature hzoom hdefault
  · have herror := evaluate_eq_error heval
    obtain ⟨curve, hcurve, _⟩ :=
      isZoomCurve_of_compile h (not_isZoomConstant_of_missing herror hkind)
    exact ⟨zoom_eq_none_of_missing herror hkind, curve, hcurve⟩

/-- A step over the zoom level is compiled, and misses the zoom level where there is none. -/
theorem zoom_rule_step :
    ∃ compiled curve, compile (.array [.string "step", .array [.string "zoom"],
        .number (.integer 1), .number (.integer 10), .number (.integer 4)])
        { kind := .number } {} = .ok compiled ∧
      compiled.expr.IsZoomCurve curve ∧ compiled.expr.zoomCurve? = some curve ∧
      curve.labels.Pairwise (· < ·) ∧
      compiled.evaluate {} = .error .missingZoom ∧ ({} : Context).zoom = none := by
  have hcheck : Json.check (.array [.string "step", .array [.string "zoom"],
      .number (.integer 1), .number (.integer 10), .number (.integer 4)]) (some .number) =
        .ok ⟨.step .zoom (.literal (.number (Number.ofInt 1)))
          [(Number.ofInt 10, .literal (.number (Number.ofInt 4)))], .number⟩ := rfl
  obtain ⟨compiled, hcompile, hexpr⟩ := (zoom_rule _ { kind := .number } {}).2.1 _ _ none hcheck
    (zoomCurve_eq_some_iff.mp rfl) (Or.inl rfl) rfl rfl
  rcases (zoom_rule _ _ _).1 _ hcompile with ⟨_, hconstant, _⟩ | ⟨curve, hcurve, _, hsome, hlabels⟩
  · rw [hexpr] at hconstant
    contradiction
  · have hmissed : compiled.evaluate {} = .error .missingZoom := by
      obtain rfl := Except.ok.inj hcompile
      rfl
    have hzoom := ((zoom_rule _ _ _).2.2 _ _ _ hcompile hmissed rfl).1
    exact ⟨compiled, curve, hcompile, hcurve, hsome, hlabels, hmissed, hzoom⟩

end PropertyExpression

end Symbology
