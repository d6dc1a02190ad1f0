import Symbology.Proofs.Constancy
import Symbology.Proofs.Expr.Curves
import Symbology.Proofs.Related
import Symbology.Proofs.ZoomRule

set_option autoImplicit false

/-! # Values of curves over the zoom level

What a declaration is at a zoom level and the weight that it tells for two stops come from one
curve. Where the outputs of the stops are numbers, the value at a zoom level is that of the nearest
stop outside of the stops, and between two stops it moves from the lower to the upper number by the
weight that is told (`Declaration.evaluate_follows_curve`). -/

namespace Symbology

/-! ## Curves -/

namespace Expr

/-- The outputs of a curve over the zoom level do not read it. -/
theorem IsZoomCurve.isZoomConstant_output {expr : Expr} {curve : ZoomCurve}
    (h : expr.IsZoomCurve curve) : ∀ output ∈ expr.outputs, output.isZoomConstant = true := by
  have hsome := zoomCurve_eq_some_iff.mpr h
  cases h.root with
  | step =>
    have hfree := (Option.ite_none_right_eq_some.mp hsome).1
    rw [Bool.and_eq_true, freeStops_eq_all, List.all_eq_true] at hfree
    exact List.forall_mem_cons.mpr hfree
  | interpolate =>
    have hfree := (Option.ite_none_right_eq_some.mp hsome).1
    rw [freeStops_eq_all, List.all_eq_true] at hfree
    exact hfree

/-- The outcomes of the expressions are these numbers. -/
def EvalNumbers (context : Context) (exprs : List Expr) (numbers : List Float) : Prop :=
  List.Forall₂ (fun expr number => eval context expr = .ok (.number number)) exprs numbers

/-- Outputs that do not read the zoom level are the same numbers at every zoom level. -/
theorem EvalNumbers.at_zoom {zoom zoom' : Option Float} {feature : Option Feature}
    {exprs : List Expr} {numbers : List Float} (h : EvalNumbers ⟨zoom, feature⟩ exprs numbers)
    (hconstant : ∀ expr ∈ exprs, expr.isZoomConstant = true) :
    EvalNumbers ⟨zoom', feature⟩ exprs numbers := by
  refine h.imp_of_mem (fun expr hexpr number _ heval => ?_)
  have hfeature : (⟨zoom', feature⟩ : Context).feature = (⟨zoom, feature⟩ : Context).feature := rfl
  rw [eval_eq_of_isZoomConstant hfeature (hconstant expr hexpr)]
  exact heval

end Expr

/-- The outcome at a zoom level follows a curve through points, of which each has a label and a
number. -/
structure FollowsCurve (weight : Float → Float → Float → Float) (points : List (Float × Float))
    (zoom : Float) (outcome : Outcome) : Prop where
  below : ∀ first, points.head? = some first → zoom ≤ first.1 → outcome = .ok (.number first.2)
  above : ∀ last, points.getLast? = some last → last.1 ≤ zoom → outcome = .ok (.number last.2)
  /-- Strictly between two labels. -/
  between : ∀ lower upper, [lower, upper] <:+: points → lower.1 < zoom → zoom < upper.1 →
    outcome = .ok (.number (lower.2 + (upper.2 - lower.2) * weight zoom lower.1 upper.1))
  /-- From the label of a point that is not the first. -/
  inner : ∀ before lower upper, [before, lower, upper] <:+: points → lower.1 ≤ zoom →
    zoom < upper.1 →
      outcome = .ok (.number (lower.2 + (upper.2 - lower.2) * weight zoom lower.1 upper.1))

section FollowsCurve

variable {weight : Float → Float → Float → Float} {points : List (Float × Float)} {zoom : Float}
  {outcome outcome' : Outcome}

theorem FollowsCurve.of_imp (h : FollowsCurve weight points zoom outcome)
    (himp : ∀ number, outcome = .ok (.number number) → outcome' = .ok (.number number)) :
    FollowsCurve weight points zoom outcome' where
  below first hfirst hle := himp _ (h.below first hfirst hle)
  above last hlast hle := himp _ (h.above last hlast hle)
  between lower upper hnext hlower hupper := himp _ (h.between lower upper hnext hlower hupper)
  inner before lower upper hnext hlower hupper :=
    himp _ (h.inner before lower upper hnext hlower hupper)

/-- Where labels ascend, it is enough to blend neighbors above some point. -/
theorem FollowsCurve.of_blend (hascending : (points.map (·.1)).Pairwise (· < ·))
    (hbelow : ∀ first, points.head? = some first → zoom ≤ first.1 →
      outcome = .ok (.number first.2))
    (habove : ∀ last, points.getLast? = some last → last.1 ≤ zoom → outcome = .ok (.number last.2))
    (hblend : ∀ before ∈ points, before.1 < zoom → ∀ lower upper, [lower, upper] <:+: points →
      lower.1 ≤ zoom → zoom < upper.1 →
        outcome = .ok (.number (lower.2 + (upper.2 - lower.2) * weight zoom lower.1 upper.1))) :
    FollowsCurve weight points zoom outcome where
  below := hbelow
  above := habove
  between := by
    intro lower upper hnext hlower hupper
    have hmem : lower ∈ points := hnext.subset List.mem_cons_self
    exact hblend lower hmem hlower lower upper hnext (Number.le_of_lt hlower) hupper
  inner := by
    intro before lower upper hnext hlower hupper
    have hmem : before ∈ points := hnext.subset List.mem_cons_self
    have hlabels := hascending.sublist (hnext.map Prod.fst).sublist
    have hbefore : before.1 < lower.1 := (List.pairwise_cons.mp hlabels).1 _ List.mem_cons_self
    exact hblend before hmem (Number.lt_of_lt_of_le hbefore hlower) lower upper
      ((List.suffix_cons _ _).isInfix.trans hnext) hlower hupper

end FollowsCurve

namespace Expr

variable {zoom : Float} {feature : Option Feature} {stops : List (Float × Expr)}
  {numbers : List Float}

/-- Every stop goes with the number of its output. -/
theorem EvalNumbers.exists_pairs {context : Context}
    (h : EvalNumbers context (stops.map (·.2)) numbers) :
    ∃ pairs : List ((Float × Expr) × Float), stops = pairs.map (·.1) ∧
      (stops.map (·.1)).zip numbers = pairs.map (fun pair => (pair.1.1, pair.2)) ∧
      ∀ pair ∈ pairs, eval context pair.1.2 = .ok (.number pair.2) := by
  rw [EvalNumbers, List.forall₂_map_left_iff] at h
  refine ⟨stops.zip numbers, (List.map_fst_zip h.length_eq.le).symm, ?_, ?_⟩
  · rw [List.zip_map_left]
    rfl
  · rintro ⟨stop, number⟩ hpair
    exact (List.forall₂_iff_zip.mp h).2 hpair

/-- Above some stop, a blend of two numbers is the number between them. -/
theorem eval_interpolate_numbers {interpolation : Interpolation} {before lower upper : Float × Expr}
    {a b : Float} (hnan : zoom.isNaN = false) (hascending : (stops.map (·.1)).Pairwise (· < ·))
    (hbefore : before ∈ stops) (habove : before.1 < zoom)
    (hnext : [lower, upper] <:+: stops) (hlower : lower.1 ≤ zoom) (hupper : zoom < upper.1)
    (ha : eval ⟨some zoom, feature⟩ lower.2 = .ok (.number a))
    (hb : eval ⟨some zoom, feature⟩ upper.2 = .ok (.number b)) :
    eval ⟨some zoom, feature⟩ (.interpolate interpolation .zoom stops) =
      .ok (.number (a + (b - a) * interpolation.factor zoom lower.1 upper.1)) := by
  rw [eval_interpolate_between (stopInput_zoom _ hnan) hascending
    (not_le_head hascending hbefore habove) hnext hlower hupper, ha, hb]
  rfl

/-- **An interpolation over the zoom level follows the curve through its stops.** -/
theorem followsCurve_interpolate {interpolation : Interpolation}
    (hascending : (stops.map (·.1)).Pairwise (· < ·)) (hnan : zoom.isNaN = false)
    (hnumbers : EvalNumbers ⟨some zoom, feature⟩ (stops.map (·.2)) numbers) :
    FollowsCurve interpolation.factor ((stops.map (·.1)).zip numbers) zoom
      (eval ⟨some zoom, feature⟩ (.interpolate interpolation .zoom stops)) := by
  obtain ⟨pairs, hstops, hpoints, hvalues⟩ := hnumbers.exists_pairs
  rw [hpoints]
  have hlabels : (pairs.map (fun pair => (pair.1.1, pair.2))).map (·.1) = stops.map (·.1) := by
    rw [hstops, List.map_map, List.map_map]
    rfl
  refine .of_blend (hlabels ▸ hascending) ?_ ?_ ?_
  · intro first hfirst hle
    rw [List.head?_map, Option.map_eq_some_iff] at hfirst
    obtain ⟨pair, hpair, rfl⟩ := hfirst
    have hstop : stops.head? = some pair.1 := by rw [hstops, List.head?_map, hpair]; rfl
    rw [eval_interpolate_below (stopInput_zoom _ hnan) hstop hle]
    exact hvalues pair (List.mem_of_head? hpair)
  · intro last hlast hle
    rw [List.getLast?_map, Option.map_eq_some_iff] at hlast
    obtain ⟨pair, hpair, rfl⟩ := hlast
    have hstop : stops.getLast? = some pair.1 := by rw [hstops, List.getLast?_map, hpair]; rfl
    rw [eval_interpolate_above (stopInput_zoom _ hnan) hascending hstop hle]
    exact hvalues pair (List.mem_of_getLast? hpair)
  · intro point hpoint hbefore lower upper hnext hlower hupper
    obtain ⟨before, hmem, rfl⟩ := List.mem_map.mp hpoint
    have hstop : before.1 ∈ stops := hstops ▸ List.mem_map_of_mem hmem
    obtain ⟨found, hpairs, hfound⟩ := List.infix_map_iff.mp hnext
    obtain ⟨l, _, rfl, rfl, hrest⟩ := List.map_eq_cons_iff.mp hfound.symm
    obtain ⟨u, _, rfl, rfl, hnil⟩ := List.map_eq_cons_iff.mp hrest
    obtain rfl := List.map_eq_nil_iff.mp hnil
    have hneighbors : [l.1, u.1] <:+: stops := hstops ▸ hpairs.map Prod.fst
    exact eval_interpolate_numbers hnan hascending hstop hbefore hneighbors hlower hupper
      (hvalues l (hpairs.subset (by simp))) (hvalues u (hpairs.subset (by simp)))

/-- The number of the last point at or below the zoom level, and `first` if there is none. -/
def numberBelow (first : Float) (points : List (Float × Float)) (zoom : Float) : Float :=
  (((points.filter (fun point => decide (point.1 ≤ zoom))).map (·.2)).getLast?).getD first

/-- **A step over the zoom level has the number of the last stop at or below it.** -/
theorem eval_step_numbers {first : Expr} {number : Float}
    (hascending : (stops.map (·.1)).Pairwise (· < ·)) (hnan : zoom.isNaN = false)
    (hnumber : eval ⟨some zoom, feature⟩ first = .ok (.number number))
    (hnumbers : EvalNumbers ⟨some zoom, feature⟩ (stops.map (·.2)) numbers) :
    eval ⟨some zoom, feature⟩ (.step .zoom first stops) =
      .ok (.number (numberBelow number ((stops.map (·.1)).zip numbers) zoom)) := by
  obtain ⟨pairs, hstops, hpoints, hvalues⟩ := hnumbers.exists_pairs
  rw [eval_step (stopInput_zoom _ hnan) hascending, numberBelow, hpoints, hstops]
  -- both sides look for the last pair at or below the zoom level
  simp only [List.filter_map, List.map_map, List.getLast?_map]
  change eval _ ((((pairs.filter (fun pair => decide (pair.1.1 ≤ zoom))).getLast?).map
      (·.1.2)).getD first) = .ok (.number ((((pairs.filter (fun pair =>
        decide (pair.1.1 ≤ zoom))).getLast?).map (·.2)).getD number))
  cases hlast : (pairs.filter (fun pair => decide (pair.1.1 ≤ zoom))).getLast? with
  | none => exact hnumber
  | some pair => exact hvalues pair (List.mem_of_mem_filter (List.mem_of_getLast? hlast))

end Expr

/-! ## Declarations -/

namespace Declaration

variable {spec : PropertySpec} {json : Json} {declaration : Declaration}
  {compiled : PropertyExpression} {curve : ZoomCurve}

/-- Without a lower bound, a number is the value of the declaration. -/
theorem evaluate_number (hminimum : declaration.minimum = none)
    (hvalue : declaration.value = .expression compiled) {context : Context} {number : Float}
    (heval : compiled.expr.eval context = .ok (.number number)) :
    declaration.evaluate context = .ok (.number number) := by
  have hnumber : compiled.evaluate context = .ok (.number number) :=
    PropertyExpression.evaluate_of_eval heval
  rw [evaluate, hvalue, PropertyValue.evaluate, hnumber, hminimum]
  rfl

/-- The weight that is told is the one of the curve. -/
theorem factor_eq (hvalue : declaration.value = .expression compiled)
    (hcurve : compiled.expr.IsZoomCurve curve) :
    declaration.factor = curve.interpolation.factor := by
  funext zoom lower upper
  have hreads : declaration.value.isZoomConstant = false := by
    rw [hvalue]
    exact hcurve.not_isZoomConstant
  have hsome : declaration.value.zoomCurve? = some curve := by
    rw [hvalue]
    exact Expr.zoomCurve_eq_some_iff.mpr hcurve
  rw [factor, hreads, hsome]
  rfl

/-- The expression of a declaration whose root is a curve over the zoom level. -/
theorem exists_curve_of_root (hread : read spec json = .ok declaration)
    (hvalue : declaration.value = .expression compiled)
    (hreads : compiled.expr.isZoomConstant = false) :
    compiled.expr.WellFormed ∧ ∃ curve, compiled.expr.IsZoomCurve curve ∧
      declaration.value.zoomCurve? = some curve := by
  rcases PropertyValue.read_cases (value_of_read hread) with
    ⟨constant, hconstant⟩ | ⟨source, options, compiled', hcompile, hexpression⟩
  · rw [hvalue] at hconstant
    contradiction
  · rw [hvalue] at hexpression
    obtain rfl := PropertyValue.expression.inj hexpression
    obtain ⟨curve, hcurve, _⟩ := PropertyExpression.isZoomCurve_of_compile hcompile hreads
    obtain ⟨typed, _, hcheck, _, _, rfl⟩ := PropertyExpression.compile_eq_ok_iff.mp hcompile
    refine ⟨Json.wellFormed_of_check hcheck _ (Expr.self_mem_nodes _), curve, hcurve, ?_⟩
    rw [hvalue]
    exact Expr.zoomCurve_eq_some_iff.mpr hcurve

/-- **The value of a declaration and the weight that it tells agree.** If the root is an
interpolation over the zoom level, the value follows the curve through the labels that are told, by
the weight that is told. If the root is a step, the value is that of the last label at or below the
zoom level, and no weight is told. -/
theorem evaluate_follows_curve (hread : read spec json = .ok declaration)
    (hminimum : declaration.minimum = none)
    (hvalue : declaration.value = .expression compiled) :
    (∀ interpolation stops, compiled.expr = .interpolate interpolation .zoom stops →
      ∃ curve, declaration.value.zoomCurve? = some curve ∧ curve.labels = stops.map (·.1) ∧
        curve.labels ≠ [] ∧ Typing.AscendingLabels curve.labels ∧
        ∀ zoom₀ feature numbers, Expr.EvalNumbers ⟨zoom₀, feature⟩ (stops.map (·.2)) numbers →
          ∀ zoom, zoom.isNaN = false →
            FollowsCurve declaration.factor (curve.labels.zip numbers) zoom
              (declaration.evaluate ⟨some zoom, feature⟩)) ∧
    ∀ first stops, compiled.expr = .step .zoom first stops →
      ∃ curve, declaration.value.zoomCurve? = some curve ∧ curve.labels = stops.map (·.1) ∧
        Typing.AscendingLabels curve.labels ∧
        (∀ zoom lower upper, declaration.factor zoom lower upper = 0) ∧
        ∀ zoom₀ feature number numbers,
          Expr.EvalNumbers ⟨zoom₀, feature⟩ (first :: stops.map (·.2)) (number :: numbers) →
          ∀ zoom, zoom.isNaN = false →
            declaration.evaluate ⟨some zoom, feature⟩ =
              .ok (.number (Expr.numberBelow number (curve.labels.zip numbers) zoom)) := by
  obtain ⟨expr, type, default, recovers, converted⟩ := compiled
  refine ⟨?_, ?_⟩
  · rintro interpolation stops (rfl : expr = _)
    obtain ⟨⟨hne, hlabels⟩, curve, hcurve, hsome⟩ := exists_curve_of_root hread hvalue rfl
    have hfactor := factor_eq hvalue hcurve
    have hconstant := hcurve.isZoomConstant_output
    obtain ⟨_⟩ := hcurve.root
    refine ⟨_, hsome, rfl, by simpa using hne, hlabels, ?_⟩
    intro zoom₀ feature numbers hnumbers zoom hnan
    rw [hfactor]
    exact (Expr.followsCurve_interpolate hlabels.ascending hnan
      (hnumbers.at_zoom hconstant)).of_imp (fun _ heval => evaluate_number hminimum hvalue heval)
  · rintro first stops (rfl : expr = _)
    obtain ⟨hlabels, curve, hcurve, hsome⟩ := exists_curve_of_root hread hvalue rfl
    have hfactor := factor_eq hvalue hcurve
    have hconstant := hcurve.isZoomConstant_output
    obtain ⟨_⟩ := hcurve.root
    refine ⟨_, hsome, rfl, hlabels, fun _ _ _ => by rw [hfactor]; rfl, ?_⟩
    intro zoom₀ feature number numbers hnumbers zoom hnan
    cases hnumbers.at_zoom hconstant with
    | cons hfirst hrest =>
      exact evaluate_number hminimum hvalue
        (Expr.eval_step_numbers hlabels.ascending hnan hfirst hrest)

/-- A number that grows with the zoom level is part of the way between its stops. -/
theorem evaluate_follows_curve_growing :
    ∃ declaration, read { kind := .number } (.object [("stops", .array [
        .array [.number (.integer 0), .number (.integer 1)],
        .array [.number (.integer 10), .number (.integer 4)]])]) = .ok declaration ∧
      declaration.evaluate ⟨some 5, none⟩ = .ok (.number (Number.ofInt 1 +
        (Number.ofInt 4 - Number.ofInt 1) *
          declaration.factor 5 (Number.ofInt 0) (Number.ofInt 10))) := by
  let json : Json := .object [("stops", .array [
    .array [.number (.integer 0), .number (.integer 1)],
    .array [.number (.integer 10), .number (.integer 4)]])]
  let stops : List (Float × Expr) :=
    [(Number.ofInt 0, .literal (.number (Number.ofInt 1))),
      (Number.ofInt 10, .literal (.number (Number.ofInt 4)))]
  let declaration : Declaration := ⟨json, .stopFunction, none,
    .expression ⟨.interpolate .linear .zoom stops, .number, none, false, true⟩⟩
  have hread : read { kind := .number } json = .ok declaration := rfl
  obtain ⟨curve, _, hlabels, _, _, hfollows⟩ :=
    (evaluate_follows_curve hread rfl rfl).1 .linear stops rfl
  have hcurve := hfollows none none [Number.ofInt 1, Number.ofInt 4]
    (.cons rfl (.cons rfl .nil)) 5 (by decide)
  rw [hlabels] at hcurve
  exact ⟨declaration, hread, hcurve.between (Number.ofInt 0, Number.ofInt 1)
    (Number.ofInt 10, Number.ofInt 4) List.infix_rfl (by decide) (by decide)⟩

end Declaration

end Symbology
