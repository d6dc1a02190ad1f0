import Symbology.Proofs.StopFunction.Compiling
import Symbology.Proofs.WrittenDependence

set_option autoImplicit false

/-! # Functions without a type

A function of the zoom level without a type blends its outputs where the property is one that
changes smoothly, and else it steps from stop to stop. This choice goes by the kind of the property,
and the checker goes by the type of the outputs; the two agree but for arrays of numbers whose
length is open, which change smoothly and cannot be blended (`PropertySpec.isInterpolated_iff`). So
a function whose outputs are constants of the property compiles unless the property is such an
array (`untyped_compiles_iff`). -/

namespace Symbology

open Typing (isInterpolable)

/-- **What changes smoothly can be blended**, if nothing else is said, except for arrays of numbers
whose length is open. -/
theorem PropertySpec.isInterpolated_iff {spec : PropertySpec} (hblending : spec.blending = none) :
    spec.isInterpolated = true ↔
      isInterpolable spec.type = true ∨ spec.type = .array .number none := by
  obtain ⟨kind, minimum, default, blending, zoomDependent, featureDependent, item, length⟩ := spec
  obtain rfl : blending = none := hblending
  cases kind with
  | array =>
    -- the kind of the items decides, and for numbers the length does
    rcases item with _ | item
    · simp [isInterpolated, type, isInterpolable]
    · cases item <;> cases length <;> simp [isInterpolated, type, isInterpolable, PropertyKind.type]
  | _ => simp [isInterpolated, type, isInterpolable, PropertyKind.type]

namespace StopFunction

variable {spec : PropertySpec} {options : CompileOptions} {stops : List NumericStop}

/-! ## Constants -/

/-- A value that compiles as a constant is one. -/
theorem isConstant_of_compile {output : Json} {compiled : PropertyExpression}
    (h : PropertyExpression.compile (call "literal" [output]) spec options = .ok compiled) :
    IsConstant spec.type output := by
  -- an output is quoted only where it has to be, and that makes no difference
  have hquoted : (call "literal" [output]).check (some spec.type) =
      (quoted output).check (some spec.type) := by
    cases output <;> rfl
  obtain ⟨typed, _, hcheck, _⟩ := PropertyExpression.compile_eq_ok_iff.mp h
  rw [hquoted] at hcheck
  obtain ⟨value, hvalue, hfits, _⟩ := spells_quoted.mp ⟨typed, hcheck, rfl⟩
  exact ⟨value, hvalue, hfits⟩

/-- Stops with constants spell outputs. -/
theorem exists_spellStops (h : ∀ stop ∈ stops, IsConstant spec.type stop.2) :
    ∃ found, SpellStops spec.type (quotedOutputs stops) found := by
  refine List.exists_forall₂ (List.forall_mem_map.mpr (fun stop hstop => ?_))
  obtain ⟨expr, hexpr⟩ := exists_spells_quoted (h stop hstop)
  exact ⟨(stop.1.toFloat, expr), rfl, hexpr⟩

/-! ## Functions -/

/-- The curve of a function without a type. -/
def defaultCurve (spec : PropertySpec) : Curve :=
  if spec.isInterpolated = true then .exponential none else .interval

/-- Stops that hold numbers are a curve over the zoom level, if there is no property. -/
theorem ofStops_writtenNumbers {settings : Settings} (hne : stops ≠ [])
    (hordered : settings.type ≠ .categorical) :
    ofStops spec settings (writtenNumbers stops) none = .ok (.overZoom settings.curve stops) := by
  have hplain : isComposite (writtenNumbers stops) = false := by
    cases stops with
    | nil => contradiction
    | cons stop rest => rfl
  exact ofStops_eq_ok_iff.mpr (Or.inr (Or.inr
    ⟨stops, rfl, hplain, hordered, numericStops_eq_ok_iff.mpr rfl, rfl⟩))

/-- Such a function is always read. -/
theorem read_untyped (hne : stops ≠ []) :
    read (.object [("stops", writtenStops (writtenNumbers stops))]) spec =
      .ok (.overZoom (defaultCurve spec) stops) := by
  have hwritten : writtenNumbers stops ≠ [] := by simpa [writtenNumbers] using hne
  have htype : functionType spec none =
      .ok (if spec.isInterpolated = true then .exponential else .interval) := rfl
  unfold defaultCurve
  by_cases hinterpolated : spec.isInterpolated = true
  · rw [if_pos hinterpolated] at htype ⊢
    exact (read_eq_ok_iff_of_stops htype (by decide) rfl).mpr
      ⟨none, none, rfl, rfl, hwritten, fun _ => hinterpolated,
        ofStops_writtenNumbers hne (by simp)⟩
  · rw [if_neg hinterpolated] at htype ⊢
    exact (read_eq_ok_iff_of_stops htype (by decide) rfl).mpr
      ⟨none, none, rfl, rfl, hwritten, by simp, ofStops_writtenNumbers hne (by simp)⟩

/-- With labels that ascend and outputs that are constants, such a function spells a tree unless its
outputs are blended and cannot be. -/
theorem exists_spells_untyped_iff (hne : stops ≠ [])
    (hascending : (stops.map (·.1.toFloat)).Pairwise (· < ·))
    (houtputs : ∀ stop ∈ stops, IsConstant spec.type stop.2) :
    (∃ expr, (overZoom (defaultCurve spec) stops).expression.Spells spec.type expr) ↔
      (spec.isInterpolated = true → isInterpolable spec.type = true) := by
  obtain ⟨found, hfound⟩ := exists_spellStops houtputs
  have hlabels : ((quotedOutputs stops).map (·.1.toFloat)).IsChain (· < ·) := by
    rw [List.isChain_iff_pairwise, quotedOutputs, List.map_map]
    exact hascending
  have hquoted : quotedOutputs stops ≠ [] := by
    rwa [quotedOutputs, ne_eq, List.map_eq_nil_iff]
  unfold defaultCurve
  by_cases hinterpolated : spec.isInterpolated = true
  · rw [if_pos hinterpolated]
    constructor
    · rintro ⟨expr, hexpr⟩ _
      exact (spells_exponential.mp hexpr).2.1
    · intro hinterpolable
      exact ⟨_, spells_exponential.mpr ⟨hquoted, hinterpolable hinterpolated, _, found,
        spells_zoomLevel.mpr rfl, hfound, hlabels, rfl⟩⟩
  · rw [if_neg hinterpolated]
    refine iff_of_true ?_ (fun h => absurd h hinterpolated)
    -- the label of the first stop is left out
    cases stops with
    | nil => contradiction
    | cons stop rest =>
      cases hfound with
      | @cons _ first _ found hfirst hrest =>
        exact ⟨_, spells_interval.mpr ⟨_, first.2, found, spells_zoomLevel.mpr rfl, hfirst.2,
          hrest, hlabels.tail, rfl⟩⟩

/-- **Which functions without a type compile.** A function of the zoom level with inputs that ascend
and outputs that are constants of the property is always read. It compiles unless the property is an
array of numbers whose length is open. -/
theorem untyped_compiles_iff (hblending : spec.blending = none)
    (hzoom : spec.zoomDependent = true) (hne : stops ≠ [])
    (hascending : (stops.map (·.1.toFloat)).Pairwise (· < ·))
    (hconstant : ∀ stop ∈ stops, ∃ compiled,
      PropertyExpression.compile (call "literal" [stop.2]) spec {} = .ok compiled) :
    ∃ function, read (.object [("stops", writtenStops (writtenNumbers stops))]) spec =
        .ok function ∧
      ((∃ compiled, PropertyExpression.compile function.expression spec { converted := true } =
          .ok compiled) ↔ spec.type ≠ .array .number none) := by
  have houtputs : ∀ stop ∈ stops, IsConstant spec.type stop.2 := by
    intro stop hstop
    obtain ⟨compiled, hcompile⟩ := hconstant stop hstop
    exact isConstant_of_compile hcompile
  have hopen : (spec.isInterpolated = true → isInterpolable spec.type = true) ↔
      spec.type ≠ .array .number none := by
    rw [PropertySpec.isInterpolated_iff hblending, or_imp, and_iff_right id]
    refine ⟨fun h htype => ?_, fun h htype => absurd htype h⟩
    have hnot := h htype
    rw [htype] at hnot
    contradiction
  refine ⟨_, read_untyped hne, ?_⟩
  rw [← hopen, ← exists_spells_untyped_iff hne hascending houtputs]
  constructor
  · rintro ⟨compiled, hcompile⟩
    exact ⟨compiled.expr, PropertyExpression.spells_of_compile hcompile⟩
  · rintro ⟨expr, hexpr⟩
    have htree := hasTree_of_spells (by simp) hexpr
    obtain ⟨typed, hcheck, rfl⟩ := hexpr
    -- the default has been compiled with each of the outputs
    obtain ⟨stop, hstop⟩ := List.exists_mem_of_ne_nil _ hne
    obtain ⟨output, houtput⟩ := hconstant stop hstop
    obtain ⟨_, default, _, _, hdefault, _⟩ := PropertyExpression.compile_eq_ok_iff.mp houtput
    have hdefault : (PropertyExpression.chosenDefault spec { converted := true }).mapM
        (PropertyExpression.defaultValue spec.type) = .ok default := hdefault
    obtain ⟨compiled, hcompile, _⟩ := PropertyExpression.exists_compile hcheck
      (Or.inl (htree.isFeatureConstant_iff.mpr rfl)) (Or.inr ⟨hzoom, htree.isZoomCurve rfl⟩)
      hdefault
    exact ⟨compiled, hcompile⟩

/-- Two pairs of numbers, as the outputs of stops. -/
def pairStops : List NumericStop :=
  let pair (x y : Int) : Json := .array [.number (.integer x), .number (.integer y)]
  [(.integer 0, pair 1 2), (.integer 10, pair 3 4)]

/-- Pairs of numbers are blended if the property says that they are pairs. -/
theorem untyped_compiles_iff_pairs :
    ∃ function compiled, read (.object [("stops", writtenStops (writtenNumbers pairStops))])
        (.arrayOf .number (some 2)) = .ok function ∧
      PropertyExpression.compile function.expression (.arrayOf .number (some 2))
        { converted := true } = .ok compiled := by
  have hascending : (pairStops.map (·.1.toFloat)).Pairwise (· < ·) := by decide
  have hconstant : ∀ stop ∈ pairStops, ∃ compiled, PropertyExpression.compile
      (call "literal" [stop.2]) (.arrayOf .number (some 2)) {} = .ok compiled :=
    List.forall_mem_cons.mpr ⟨Except.exists_of_isOk rfl,
      List.forall_mem_singleton.mpr (Except.exists_of_isOk rfl)⟩
  obtain ⟨function, hread, hiff⟩ :=
    untyped_compiles_iff rfl rfl (List.cons_ne_nil _ _) hascending hconstant
  obtain ⟨compiled, hcompile⟩ := hiff.mpr (by simp [PropertySpec.type, PropertySpec.arrayOf])
  exact ⟨function, compiled, hread, hcompile⟩

/-- So not every function compiles whose outputs are constants of the property: arrays of numbers
whose length is open are blended without a type, and refused for it. -/
theorem not_untyped_compiles :
    ¬∀ (spec : PropertySpec) (stops : List NumericStop), spec.blending = none →
      spec.default = none → spec.zoomDependent = true → stops ≠ [] →
      (stops.map (·.1.toFloat)).Pairwise (· < ·) →
      (∀ stop ∈ stops, ∃ compiled,
        PropertyExpression.compile (call "literal" [stop.2]) spec {} = .ok compiled) →
      ∃ function compiled, read (.object [("stops", writtenStops (writtenNumbers stops))]) spec =
          .ok function ∧
        PropertyExpression.compile function.expression spec { converted := true } =
          .ok compiled := by
  intro h
  obtain ⟨function, compiled, hread, hcompile⟩ := h (.arrayOf .number none) pairStops rfl rfl rfl
    (List.cons_ne_nil _ _) (by decide)
    (List.forall_mem_cons.mpr ⟨Except.exists_of_isOk rfl,
      List.forall_mem_singleton.mpr (Except.exists_of_isOk rfl)⟩)
  obtain rfl : overZoom (.exponential none) pairStops = function := Except.ok.inj hread
  have hrefused : (PropertyExpression.compile (overZoom (.exponential none) pairStops).expression
      (.arrayOf .number none) { converted := true }).isOk = false := by decide
  rw [hcompile] at hrefused
  contradiction

end StopFunction

end Symbology
