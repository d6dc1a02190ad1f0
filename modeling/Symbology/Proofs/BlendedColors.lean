import Symbology.Proofs.Color.Blending
import Symbology.Proofs.Expr.Curves
import Symbology.Proofs.Interpolation.Weight
import Symbology.Proofs.StopFunction.Spelling
import Symbology.Proofs.Typing.WellFormed

set_option autoImplicit false

/-! # Interpolations of colors

An interpolation of colors blends the two stops around the input. What the kind of the interpolation
makes of the place between them is the weight of the upper one, and colors in the range stay there
just if the weights are in the range, too (`Interpolation.keepsColors_iff`). At an even rate they
are, unless the way to the input is too long for a number. Powers and Bézier curves may leave the
range: the base and two of the four control coordinates are not looked at. -/

namespace Symbology

open Number StopFunction Typing

namespace Interpolation

/-- The number is above the first of the labels and lies between two that stand next to each
other. -/
structure LiesBetween (labels : List Float) (x lower upper : Float) : Prop where
  neighbors : [lower, upper] <:+: labels
  above_first : ∃ label ∈ labels, label < x
  lower_le : lower ≤ x
  lt_upper : x < upper

/-- Wherever the upper of two stops counts, its weight is between 0 and 1. -/
def WeighsInUnit (interpolation : Interpolation) (labels : List Float) (x : Float) : Prop :=
  ∀ lower upper, LiesBetween labels x lower upper →
    Color.InUnit (narrow (interpolation.factor x lower upper))

/-- The outputs of the stops are colors in the range. -/
def RealOutputs (context : Context) (stops : List (Float × Expr)) : Prop :=
  ∀ stop ∈ stops, ∃ color, stop.2.eval context = .ok (.color color) ∧ color.IsReal

/-- However it is written and whatever its outputs are, an interpolation of colors between these
labels has a color in the range if its outputs are in the range. -/
def KeepsColors (interpolation : Interpolation) (input : Expr) (labels : List Float)
    (context : Context) : Prop :=
  ∀ (json : Json) (expected : Option ValueType) (typed : Typed) (stops : List (Float × Expr)),
    json.check expected = .ok typed → typed.type = .color →
      typed.expr = .interpolate interpolation input stops → stops.map (·.1) = labels →
        RealOutputs context stops →
          ∃ color, typed.expr.eval context = .ok (.color color) ∧ color.IsReal

variable {interpolation : Interpolation} {input : Expr} {context : Context} {x : Float}

/-! ## Weights in the range -/

/-- **Weights in the range** blend colors in the range to such a color. -/
theorem isReal_of_weighsInUnit {stops : List (Float × Expr)} (hne : stops ≠ [])
    (hlabels : AscendingLabels (stops.map (·.1)))
    (hinput : Outcome.stopInput .interpolate (input.eval context) = .ok x)
    (hreal : RealOutputs context stops)
    (hweights : interpolation.WeighsInUnit (stops.map (·.1)) x) :
    ∃ color, (Expr.interpolate interpolation input stops).eval context = .ok (.color color) ∧
      color.IsReal := by
  have hnan : x.isNaN = false := Expr.isNaN_of_stopInput hinput
  have hcomparable : ∀ stop ∈ stops, stop.1.isNaN = false :=
    List.forall_mem_map.mp hlabels.comparable
  have hfirst : stops.head? = some (stops.head hne) := List.head?_eq_some_head hne
  have hlast : stops.getLast? = some (stops.getLast hne) := List.getLast?_eq_some_getLast hne
  by_cases hbelow : x ≤ (stops.head hne).1
  · rw [Expr.eval_interpolate_below hinput hfirst hbelow]
    exact hreal _ (List.head_mem hne)
  by_cases habove : (stops.getLast hne).1 ≤ x
  · rw [Expr.eval_interpolate_above hinput hlabels.ascending hlast habove]
    exact hreal _ (List.getLast_mem hne)
  -- between the first and the last stop two outputs are blended
  obtain ⟨index, hsplit⟩ := exists_splitsAt hlabels.ascending x
  obtain ⟨lower, upper, _, hlower, hupper, hneighbors, hle, hlt⟩ :=
    hsplit.exists_neighbors hne hcomparable hnan hbelow habove
  have hfirst_lt : (stops.head hne).1 < x :=
    Number.lt_of_not_le (hcomparable _ (List.head_mem hne)) hnan hbelow
  have hweight := hweights lower.1 upper.1 ⟨hneighbors.map Prod.fst,
    ⟨_, List.mem_map_of_mem (List.head_mem hne), hfirst_lt⟩, hle, hlt⟩
  obtain ⟨c, hc, hrealC⟩ := hreal lower (List.mem_of_getElem? hlower)
  obtain ⟨d, hd, hrealD⟩ := hreal upper (List.mem_of_getElem? hupper)
  refine ⟨c.blend d (narrow (interpolation.factor x lower.1 upper.1)), ?_,
    Color.isReal_blend hweight hrealC hrealD⟩
  rw [Expr.eval_interpolate_between hinput hlabels.ascending
    (Expr.not_le_head hlabels.ascending (List.head_mem hne) hfirst_lt) hneighbors hle hlt, hc, hd]
  rfl

/-- At an even rate the weights are in the range if the ways to the input are finite. -/
theorem weighsInUnit_linear_iff {labels : List Float} :
    WeighsInUnit .linear labels x ↔
      ∀ lower upper, LiesBetween labels x lower upper → (x - lower).isFinite = true := by
  refine forall₃_congr fun lower upper h => ⟨fun hweight => ?_, fun hfinite => ?_⟩
  · have hfactor : (factor .linear x lower upper).isFinite = true :=
      isFinite_of_narrow hweight.between.finite
    rw [linearFactor_eq (lt_of_le_of_lt h.lower_le h.lt_upper)] at hfactor
    exact isFinite_of_div hfactor
  · have hbetween := betweenDoubles_linear h.lower_le h.lt_upper hfinite
    exact Color.inUnit_of_between (between_narrow isSingle_zero isSingle_one hbetween)

/-! ## Black and white

Between black and white the weight of the upper stop comes out as the red channel. -/

theorem read_black : Color.read "black" = .ok Color.black := by decide +kernel

theorem read_white : Color.read "white" = .ok Color.white := by decide +kernel

/-- The name of a color is a constant. -/
theorem spells_color {text : String} {color : Color} (h : Color.read text = .ok color) :
    (Json.string text).Spells .color (.literal (.color color)) :=
  (spells_of_check_constant rfl).mpr ⟨_, .color rfl h, Or.inr rfl, rfl⟩

/-- Only a color fits where one is wanted. -/
theorem type_of_check_color {json : Json} {typed : Typed}
    (hcheck : json.check (some .color) = .ok typed) : typed.type = .color := by
  have haccepts : ValueType.color.accepts typed.type = true := (Json.check_derives hcheck).accepts
  rw [ValueType.accepts_iff_eq (by simp) (by simp)] at haccepts
  exact haccepts.symm

/-- A stop that is black at or below `x`, and white above it. -/
def blackWhiteStop (x label : Float) : Float × Expr :=
  (label, .literal (.color (if label ≤ x then Color.black else Color.white)))

/-- Between all labels there is an interpolation of black and white. -/
theorem exists_blackWhite {kind inputJson : Json} {labels : List Json.Number}
    (hkind : Typing.interpolation kind = .ok interpolation)
    (hinput : inputJson.Spells .number input) (hne : labels ≠ [])
    (hascending : (labels.map (·.toFloat)).IsChain (· < ·)) (x : Float) :
    ∃ (json : Json) (typed : Typed), json.check (some .color) = .ok typed ∧ typed.type = .color ∧
      typed.expr =
        .interpolate interpolation input ((labels.map (·.toFloat)).map (blackWhiteStop x)) := by
  let stops : List (Json.Number × Json) :=
    labels.map (fun label => (label, .string (if label.toFloat ≤ x then "black" else "white")))
  have hstops :
      SpellStops .color stops ((labels.map (·.toFloat)).map (blackWhiteStop x)) := by
    rw [SpellStops, List.map_map, List.forall₂_map_left_iff, List.forall₂_map_right_iff,
      List.forall₂_same]
    intro label _
    refine ⟨rfl, ?_⟩
    dsimp only [Function.comp_apply, blackWhiteStop]
    split
    · exact spells_color read_black
    · exact spells_color read_white
  have hlabels : stops.map (·.1.toFloat) = labels.map (·.toFloat) := by
    rw [List.map_map]
    rfl
  obtain ⟨typed, hcheck, hexpr⟩ := spells_interpolate.mpr ⟨by simpa [stops] using hne, rfl, _, _, _,
    hkind, hinput, hstops, hlabels ▸ hascending, rfl⟩
  exact ⟨_, typed, hcheck, type_of_check_color hcheck, hexpr⟩

theorem map_fst_blackWhite (x : Float) (labels : List Float) :
    (labels.map (blackWhiteStop x)).map (·.1) = labels := by
  rw [List.map_map]
  exact List.map_id labels

/-- The weight of white. -/
theorem eval_blackWhite {labels : List Float} {lower upper : Float}
    (hinput : Outcome.stopInput .interpolate (input.eval context) = .ok x)
    (hascending : labels.Pairwise (· < ·)) (h : LiesBetween labels x lower upper) :
    (Expr.interpolate interpolation input (labels.map (blackWhiteStop x))).eval context =
      .ok (.color (Color.black.blend Color.white
        (narrow (interpolation.factor x lower upper)))) := by
  have hstops : ((labels.map (blackWhiteStop x)).map (·.1)).Pairwise (· < ·) := by
    rwa [map_fst_blackWhite]
  obtain ⟨hneighbors, ⟨label, hlabel, habove⟩, hle, hlt⟩ := h
  rw [Expr.eval_interpolate_between hinput hstops
    (Expr.not_le_head hstops (List.mem_map_of_mem hlabel) habove)
    (hneighbors.map (blackWhiteStop x)) hle hlt]
  simp only [blackWhiteStop, if_pos hle, if_neg (not_le_of_lt hlt)]
  rfl

theorem realOutputs_blackWhite (labels : List Float) :
    RealOutputs context (labels.map (blackWhiteStop x)) := by
  refine List.forall_mem_map.mpr fun label _ => ⟨_, rfl, ?_⟩
  split
  · exact Color.isReal_black
  · exact Color.isReal_white

/-! ## All interpolations -/

theorem keepsColors_of_weighsInUnit {labels : List Float}
    (hinput : Outcome.stopInput .interpolate (input.eval context) = .ok x)
    (h : interpolation.WeighsInUnit labels x) : interpolation.KeepsColors input labels context := by
  rintro json expected typed stops hcheck - hexpr rfl hreal
  have hwell := Json.wellFormed_of_check hcheck _ (Expr.self_mem_nodes _)
  rw [hexpr] at hwell ⊢
  exact isReal_of_weighsInUnit hwell.1 hwell.2 hinput hreal h

theorem weighsInUnit_of_keepsColors {kind inputJson : Json} {labels : List Json.Number}
    (hkind : Typing.interpolation kind = .ok interpolation)
    (hspells : inputJson.Spells .number input) (hne : labels ≠ [])
    (hascending : (labels.map (·.toFloat)).Pairwise (· < ·))
    (hinput : Outcome.stopInput .interpolate (input.eval context) = .ok x)
    (h : interpolation.KeepsColors input (labels.map (·.toFloat)) context) :
    interpolation.WeighsInUnit (labels.map (·.toFloat)) x := by
  intro lower upper hlies
  obtain ⟨json, typed, hcheck, htype, hexpr⟩ :=
    exists_blackWhite hkind hspells hne (List.isChain_iff_pairwise.mpr hascending) x
  obtain ⟨color, heval, hreal⟩ := h json _ typed _ hcheck htype hexpr (map_fst_blackWhite x _)
    (realOutputs_blackWhite _)
  rw [hexpr, eval_blackWhite hinput hascending hlies] at heval
  obtain rfl := Value.color.inj (Except.ok.inj heval)
  exact Color.inUnit_of_blendChannel hreal.red

/-- **Interpolations of colors**: where the input is `x`, all that have the kind, the input and the
labels of one that is accepted keep colors in the range just if the weight of the stop above `x` is
between 0 and 1. At an even rate that is so if the way to `x` is finite. -/
theorem keepsColors_iff {kind inputJson : Json} {rest : List Json} {expected : Option ValueType}
    {typed : Typed}
    (hcheck : (call "interpolate" (kind :: inputJson :: rest)).check expected = .ok typed) :
    ∃ interpolation input stops, Typing.interpolation kind = .ok interpolation ∧
      inputJson.Spells .number input ∧ typed.expr = .interpolate interpolation input stops ∧
      ∀ context x, input.eval context = .ok (.number x) → x.isNaN = false →
        (interpolation.KeepsColors input (stops.map (·.1)) context ↔
          interpolation.WeighsInUnit (stops.map (·.1)) x) ∧
        (interpolation = .linear →
          (interpolation.KeepsColors input (stops.map (·.1)) context ↔
            ∀ lower upper, LiesBetween (stops.map (·.1)) x lower upper →
              (x - lower).isFinite = true)) := by
  obtain ⟨interpolation, input, stops, _, hkind, hinput, hstops, hexpr⟩ :=
    interpolate_of_check hcheck
  obtain ⟨labels, hlabels⟩ := exists_numbers_of_stops hstops
  obtain ⟨hne, _, hascending⟩ : stops ≠ [] ∧ AscendingLabels (stops.map (·.1)) := by
    have hwell := Json.wellFormed_of_check hcheck _ (Expr.self_mem_nodes _)
    rwa [hexpr] at hwell
  refine ⟨interpolation, input, stops, hkind, hinput, hexpr, fun context x hx hnan => ?_⟩
  have hread : Outcome.stopInput .interpolate (input.eval context) = .ok x :=
    Expr.stopInput_number .interpolate hx hnan
  have hkeeps : interpolation.KeepsColors input (stops.map (·.1)) context ↔
      interpolation.WeighsInUnit (stops.map (·.1)) x := by
    refine ⟨fun h => ?_, keepsColors_of_weighsInUnit hread⟩
    have hne' : labels ≠ [] := by
      rintro rfl
      exact hne (List.map_eq_nil_iff.mp hlabels)
    rw [hlabels] at h hascending ⊢
    exact weighsInUnit_of_keepsColors hkind hinput hne' hascending hread h
  refine ⟨hkeeps, ?_⟩
  rintro rfl
  exact hkeeps.trans weighsInUnit_linear_iff

/-- Halfway from black to white at an even rate. -/
theorem keepsColors_linear :
    ∃ typed, (call "interpolate" [.array [.string "linear"], zoomLevel,
        .number (.integer 0), .string "black", .number (.integer 10), .string "white"]).check
          (some .color) = .ok typed ∧
      ∃ color, typed.expr.eval ⟨some (ofInt 5), none⟩ = .ok (.color color) ∧ color.IsReal := by
  let stops : List (Json.Number × Json) :=
    [(.integer 0, .string "black"), (.integer 10, .string "white")]
  have hstops : SpellStops .color stops ([ofInt 0, ofInt 10].map (blackWhiteStop (ofInt 5))) :=
    .cons ⟨rfl, spells_color read_black⟩ (.cons ⟨rfl, spells_color read_white⟩ .nil)
  obtain ⟨typed, hcheck, hexpr⟩ := spells_interpolate.mpr ⟨List.cons_ne_nil _ _, rfl, _, _, _,
    (rfl : Typing.interpolation (.array [.string "linear"]) = .ok .linear),
    spells_zoomLevel.mpr rfl, hstops, by decide, rfl⟩
  obtain ⟨interpolation, input, stops', hkind, hinput, hexpr', hkeeps⟩ := keepsColors_iff hcheck
  obtain rfl : .linear = interpolation := Except.ok.inj hkind
  obtain rfl := spells_zoomLevel.mp hinput
  obtain rfl := (Expr.interpolate.inj (hexpr'.symm.trans hexpr)).2.2
  refine ⟨typed, hcheck, ((hkeeps ⟨some (ofInt 5), none⟩ (ofInt 5) rfl rfl).2 rfl).mpr ?_
    _ _ typed _ hcheck (type_of_check_color hcheck) hexpr rfl (realOutputs_blackWhite _)⟩
  rintro lower upper ⟨hneighbors, _, _, _⟩
  obtain ⟨rfl, rfl⟩ : lower = ofInt 0 ∧ upper = ofInt 10 := by
    simpa [blackWhiteStop] using hneighbors.eq_of_length rfl
  decide

/-- So an interpolation does not keep all colors in the range: a Bézier curve may rise above 1. -/
theorem not_keepsColors :
    ¬∀ (json : Json) (expected : Option ValueType) (typed : Typed) (interpolation : Interpolation)
      (input : Expr) (stops : List (Float × Expr)) (context : Context) (x : Float),
      json.check expected = .ok typed → typed.type = .color →
        typed.expr = .interpolate interpolation input stops →
          input.eval context = .ok (.number x) → x.isNaN = false → RealOutputs context stops →
            ∃ color, typed.expr.eval context = .ok (.color color) ∧ color.IsReal := by
  intro h
  let half : Json := .number (.float 0.5 rfl)
  let two : Json := .number (.integer 2)
  let kind : Json := .array [.string "cubic-bezier", half, two, half, two]
  let labels : List Json.Number := [.integer 0, .integer 10]
  have hkind : Typing.interpolation kind = .ok (.cubicBezier 0.5 (ofInt 2) 0.5 (ofInt 2)) := rfl
  obtain ⟨json, typed, hcheck, htype, hexpr⟩ := exists_blackWhite hkind (spells_zoomLevel.mpr rfl)
    (List.cons_ne_nil _ _ : labels ≠ []) (by decide) (ofInt 5)
  obtain ⟨color, heval, hreal⟩ := h json _ typed _ _ _ ⟨some (ofInt 5), none⟩ (ofInt 5) hcheck htype
    hexpr rfl rfl (realOutputs_blackWhite _)
  have hlies : LiesBetween (labels.map (·.toFloat)) (ofInt 5) (ofInt 0) (ofInt 10) :=
    ⟨List.infix_rfl, ⟨ofInt 0, List.mem_cons_self, by decide⟩, by decide, by decide⟩
  rw [hexpr, eval_blackWhite rfl (by decide) hlies] at heval
  obtain rfl := Value.color.inj (Except.ok.inj heval)
  exact absurd (Color.inUnit_of_blendChannel hreal.red).upper (by decide +kernel)

end Interpolation

end Symbology
