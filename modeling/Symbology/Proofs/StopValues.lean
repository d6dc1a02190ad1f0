import Symbology.Proofs.Expr.Curves
import Symbology.Proofs.Interpolation.Weight
import Symbology.Proofs.StopFunction.Spelling
import Symbology.Proofs.Typing.WellFormed

set_option autoImplicit false

/-! # Interpolations at their stops

Where the input is at the label of a stop, an interpolation of numbers is meant to have the number
of that stop. It has so at the first and at the last stop. At a stop between others the number is
blended with the next one, and comes out unless the weight of the next one or the difference to it
is out of range (`PassesThrough`), when the outcome is not a number
(`NumberStop.eval_at_stop`). -/

namespace Symbology

open Number StopFunction Typing

/-! ## Numbers at stops -/

/-- The points of a curve are its stops. -/
def pointStop (point : Float × Float) : Float × Expr :=
  (point.1, .literal (.number point.2))

theorem labels_pointStops (points : List (Float × Float)) :
    (points.map pointStop).map (·.1) = points.map (·.1) := by
  rw [List.map_map]
  rfl

/-- A stop with its number as they are written; the number may be quoted. -/
structure NumberStop where
  label : Json.Number
  number : Json.Number
  quoted : Bool

namespace NumberStop

/-- The output of the stop, a number. -/
def output (stop : NumberStop) : Json :=
  if stop.quoted then call "literal" [.number stop.number] else .number stop.number

/-- What the stop stands for. -/
def point (stop : NumberStop) : Float × Float :=
  (stop.label.toFloat, stop.number.toFloat)

/-- An interpolation between stops, as it is written. -/
def interpolation (kind input : Json) (stops : List NumberStop) : Json :=
  call "interpolate" (kind :: input ::
    alternate (stops.map (fun stop => (.number stop.label, stop.output))))

/-- A number is a constant, whatever type is wanted. -/
theorem expr_of_check_output {stop : NumberStop} {expected : Option ValueType} {typed : Typed}
    (h : stop.output.check expected = .ok typed) :
    typed.expr = .literal (.number stop.point.2) := by
  have hinfer : stop.output.infer expected = .ok (.literal (.number stop.number.toFloat)) := by
    unfold output
    split <;> cases expected with
    | none => rfl
    | some type => cases type <;> rfl
  obtain ⟨inferred, hok, hfit⟩ := Except.bind_eq_ok_iff.mp h
  obtain rfl := Except.ok.inj (hinfer.symm.trans hok)
  exact expr_of_reconcile_of_ne hfit nofun

theorem eq_of_stopLabel {stop : NumberStop} {operator : StopOperator} {previous : Option Float}
    {index : ℕ} {infer : Option ValueType → Checked Typed} {label : Float}
    (h : stopLabel operator previous ⟨index, .number stop.label, infer⟩ = .ok label) :
    label = stop.point.1 := by
  simp only [stopLabel, Json.number?] at h
  split at h
  · contradiction
  · exact (Except.ok.inj h).symm

/-- The stops of an interpolation are the points that they are written as. -/
theorem eq_of_stops {stops : List NumberStop} {operator : StopOperator} {previous : Option Float}
    {expected shared : Option ValueType} {index : ℕ} {found : List (Float × Expr)}
    (h : Typing.stops operator previous expected (Json.operands index
      (alternate (stops.map (fun stop => (.number stop.label, stop.output))))) =
        .ok (found, shared)) :
    found = (stops.map point).map pointStop := by
  induction stops generalizing previous expected shared index found with
  | nil =>
    obtain ⟨rfl, _⟩ := Prod.mk.inj (Except.ok.inj h)
    rfl
  | cons stop rest ih =>
    simp only [List.map_cons, alternate, Json.operands, Typing.stops, Except.seq_eq_ok_iff,
      Except.pure_eq_ok_iff, check_operand] at h
    obtain ⟨label, hlabel, typed, htyped, ⟨others, shared'⟩, hrest, h⟩ := h
    obtain ⟨rfl, _⟩ := Prod.mk.inj h
    dsimp only
    rw [ih hrest, eq_of_stopLabel hlabel, expr_of_check_output htyped]
    rfl

/-- **What an interpolation of numbers spells**: a curve through the points. -/
theorem spells_interpolation {kind input : Json} {stops : List NumberStop}
    {interpolation' : Interpolation} {input' : Expr}
    (hkind : Typing.interpolation kind = .ok interpolation') (hinput : input.Spells .number input')
    (hne : stops ≠ []) (hascending : (stops.map (·.point.1)).IsChain (· < ·)) :
    (interpolation kind input stops).Spells .number
      (.interpolate interpolation' input' ((stops.map point).map pointStop)) := by
  have hoperands : stops.map (fun stop => (Json.number stop.label, stop.output)) =
      (stops.map (fun stop => (stop.label, stop.output))).map
        (fun stop => (Json.number stop.1, stop.2)) := by
    rw [List.map_map]
    rfl
  rw [interpolation, hoperands, spells_interpolate]
  refine ⟨by simpa using hne, rfl, _, _, _, hkind, hinput, ?_, ?_, rfl⟩
  · rw [SpellStops, List.map_map, List.forall₂_map_left_iff, List.forall₂_map_right_iff,
      List.forall₂_same]
    rintro ⟨label, number, quoted⟩ _
    exact ⟨rfl, .literal (.number number.toFloat), by cases quoted <;> rfl, rfl⟩
  · rw [List.map_map]
    exact hascending

end NumberStop

/-! ## Points -/

/-- The number of a point comes out at its label: it is the first or the last one, or the weight of
the next point vanishes there and the difference to it is finite. -/
def Interpolation.PassesThrough (interpolation : Interpolation) (points : List (Float × Float))
    (index : ℕ) : Prop :=
  ∀ point next, 0 < index → points[index]? = some point → points[index + 1]? = some next →
    interpolation.StartsAtZero point.1 next.1 ∧ (next.2 - point.2).isFinite = true

namespace Expr

variable {context : Context} {input : Expr} {points : List (Float × Float)} {x : Float}
  {interpolation : Interpolation}

/-- The number of a point is what comes out if the curve passes through it. -/
theorem passes_self {number : Float} (hnan : number.isNaN = false) {P : Prop} (hP : P) :
    (P → (number == number) = true ∧ ((number == 0) = false → number = number)) ∧
      (¬P → number.isNaN = true) :=
  ⟨fun _ => ⟨beq_self_of_isNaN hnan, fun _ => rfl⟩, fun h => absurd hP h⟩

/-- **A curve through points at one of them.** -/
theorem eval_at_point {kind : Json} (hkind : Typing.interpolation kind = .ok interpolation)
    (hlabels : AscendingLabels (points.map (·.1)))
    (hinput : Outcome.stopInput .interpolate (eval context input) = .ok x) {index : ℕ}
    {point : Float × Float} (hpoint : points[index]? = some point)
    (hnan : point.2.isNaN = false) (hx : (x == point.1) = true) :
    ∃ number, eval context (.interpolate interpolation input (points.map pointStop)) =
        .ok (.number number) ∧
      (interpolation.PassesThrough points index →
        (number == point.2) = true ∧ ((point.2 == 0) = false → number = point.2)) ∧
      (¬interpolation.PassesThrough points index → number.isNaN = true) := by
  have hascending : ((points.map pointStop).map (·.1)).Pairwise (· < ·) := by
    rw [labels_pointStops]
    exact hlabels.ascending
  have hbelow : x ≤ point.1 := le_of_beq hx
  have habove : point.1 ≤ x := le_of_beq (BEq.symm hx)
  cases index with
  | zero =>
    have hfirst : (points.map pointStop).head? = some (pointStop point) := by
      rw [List.head?_map, List.head?_eq_getElem?, hpoint]
      rfl
    exact ⟨point.2, eval_interpolate_below hinput hfirst hbelow,
      passes_self hnan (fun _ _ h => absurd h (lt_irrefl 0))⟩
  | succ index =>
    cases hnext : points[index + 2]? with
    | none =>
      have hlast : (points.map pointStop).getLast? = some (pointStop point) := by
        have hlength : points.length = index + 2 := by
          have hlt := (List.getElem?_eq_some_iff.mp hpoint).1
          have hge := List.getElem?_eq_none_iff.mp hnext
          omega
        rw [List.getLast?_map, List.getLast?_eq_getElem?, hlength]
        exact congrArg (Option.map pointStop) hpoint
      exact ⟨point.2, eval_interpolate_above hinput hascending hlast habove,
        passes_self hnan (fun _ _ _ _ h => absurd (hnext.symm.trans h) nofun)⟩
    | some next =>
      obtain ⟨hlt, rfl⟩ := List.getElem?_eq_some_iff.mp hnext
      obtain ⟨_, rfl⟩ := List.getElem?_eq_some_iff.mp hpoint
      have hpairwise := List.pairwise_iff_getElem.mp (List.pairwise_map.mp hlabels.ascending)
      have hfirst : points[0].1 < points[index + 1].1 := hpairwise _ _ _ _ (Nat.succ_pos index)
      have hbetween : points[index + 1].1 < points[index + 2].1 :=
        hpairwise _ _ _ _ (Nat.lt_succ_self _)
      have hneighbors : [points[index + 1], points[index + 2]] <:+: points := infix_neighbors hlt
      have hmem : pointStop points[0] ∈ points.map pointStop :=
        List.mem_map_of_mem (List.getElem_mem _)
      have hfactor := Interpolation.zeroIf_factor hkind hx
        (isFinite_of_lt_of_lt hfirst hbetween) hbetween
      have hpasses : interpolation.PassesThrough points (index + 1) ↔
          interpolation.StartsAtZero points[index + 1].1 points[index + 2].1 ∧
            (points[index + 2].2 - points[index + 1].2).isFinite = true :=
        ⟨fun h => h _ _ (Nat.succ_pos index) hpoint hnext, fun h point next _ hp hn => by
          obtain rfl := Option.some.inj (hpoint.symm.trans hp)
          obtain rfl := Option.some.inj (hnext.symm.trans hn)
          exact h⟩
      refine ⟨points[index + 1].2 + (points[index + 2].2 - points[index + 1].2) *
        interpolation.factor x points[index + 1].1 points[index + 2].1, ?_, ?_⟩
      · rw [eval_interpolate_between hinput hascending
          (not_le_head hascending hmem (lt_of_lt_of_le hfirst habove))
          (hneighbors.map pointStop) habove (lt_of_le_of_lt hbelow hbetween)]
        rfl
      · rw [hpasses]
        exact blend_at_zero hfactor

end Expr

/-! ## Stops -/

/-- **An interpolation of numbers at one of its stops** has the number of the stop, up to the sign
of a zero, just if the curve passes through it; else the outcome is not a number. -/
theorem NumberStop.eval_at_stop {kind input : Json} {stops : List NumberStop}
    {expected : Option ValueType} {typed : Typed}
    (hcheck : (interpolation kind input stops).check expected = .ok typed) :
    ∃ interpolation input', Typing.interpolation kind = .ok interpolation ∧
      input.Spells .number input' ∧
      ∀ context x, input'.eval context = .ok (.number x) →
        ∀ index stop, stops[index]? = some stop → (x == stop.point.1) = true →
          ∃ number, typed.expr.eval context = .ok (.number number) ∧
            (interpolation.PassesThrough (stops.map point) index →
              (number == stop.point.2) = true ∧
                ((stop.point.2 == 0) = false → number = stop.point.2)) ∧
            (¬interpolation.PassesThrough (stops.map point) index → number.isNaN = true) := by
  obtain ⟨interpolation, input', found, shared, hkind, hinput, hstops, hexpr⟩ :=
    interpolate_of_check hcheck
  obtain rfl : found = (stops.map point).map pointStop := eq_of_stops hstops
  have hwell := Json.wellFormed_of_check hcheck _ (Expr.self_mem_nodes _)
  rw [hexpr] at hwell
  have hlabels : AscendingLabels ((stops.map point).map (·.1)) :=
    labels_pointStops (stops.map point) ▸ hwell.2
  refine ⟨interpolation, input', hkind, hinput, fun context x hx index stop hstop hlabel => ?_⟩
  have hnan : x.isNaN = false := ((beq_iff _ _).mp hlabel).1
  have hread : Outcome.stopInput .interpolate (input'.eval context) = .ok x :=
    Expr.stopInput_number .interpolate hx hnan
  have hpoint : (stops.map point)[index]? = some stop.point := by
    rw [List.getElem?_map, hstop]
    rfl
  rw [hexpr]
  exact Expr.eval_at_point hkind hlabels hread hpoint stop.number.toFloat_isNaN hlabel

/-- A line through three points has the number of the second one at its label. -/
theorem NumberStop.eval_at_stop_linear :
    ∃ typed, (interpolation (.array [.string "linear"]) zoomLevel [⟨.integer 0, .integer 1, false⟩,
        ⟨.integer 10, .integer 4, true⟩, ⟨.integer 20, .integer 16, false⟩]).check none =
          .ok typed ∧
      ∃ number, typed.expr.eval ⟨some (ofInt 10), none⟩ = .ok (.number number) ∧
        number = ofInt 4 := by
  obtain ⟨typed, hcheck⟩ : ∃ typed, (interpolation (.array [.string "linear"]) zoomLevel
      [⟨.integer 0, .integer 1, false⟩, ⟨.integer 10, .integer 4, true⟩,
        ⟨.integer 20, .integer 16, false⟩]).check none = .ok typed := ⟨_, rfl⟩
  obtain ⟨k, input, hkind, hinput, hstops⟩ := eval_at_stop hcheck
  obtain rfl : .linear = k := Except.ok.inj hkind
  obtain rfl := spells_zoomLevel.mp hinput
  obtain ⟨number, heval, hpasses, _⟩ := hstops ⟨some (ofInt 10), none⟩ (ofInt 10) rfl 1
    ⟨.integer 10, .integer 4, true⟩ rfl (by decide)
  refine ⟨typed, hcheck, number, heval, (hpasses ?_).2 (by decide)⟩
  rintro _ _ _ ⟨⟩ ⟨⟩
  exact ⟨trivial, by decide⟩

/-- So an interpolation does not always have the number of a stop at its label: a control point may
be so far away that the coefficients of the curve are infinite. -/
theorem NumberStop.not_eval_at_stop :
    ¬∀ (kind : Json) (stops : List NumberStop) (typed : Typed),
      (interpolation kind zoomLevel stops).check (some .number) = .ok typed →
      (∀ stop ∈ stops, stop.point.2.isFinite = true) →
        ∀ stop ∈ stops, ∃ number,
          typed.expr.eval ⟨some stop.point.1, none⟩ = .ok (.number number) ∧
            (number == stop.point.2) = true := by
  intro h
  obtain ⟨far, hfar, hnan⟩ : ∃ far : Float, far.isFinite = true ∧
      (ofInt 10 + (ofInt 20 - ofInt 10) * (Interpolation.cubicBezier 0.5 far 0.5 (ofInt 0)).factor
        (ofInt 1) (ofInt 1) (ofInt 2)).isNaN = true :=
    ⟨1e308, by decide +kernel, by decide +kernel⟩
  let half : Json := .number (.float 0.5 rfl)
  let kind : Json := .array [.string "cubic-bezier", half, .number (.float far hfar), half,
    .number (.integer 0)]
  let stops : List NumberStop := [⟨.integer 0, .integer 0, false⟩, ⟨.integer 1, .integer 10, false⟩,
    ⟨.integer 2, .integer 20, false⟩]
  have hkind : Typing.interpolation kind = .ok (.cubicBezier 0.5 far 0.5 (ofInt 0)) := rfl
  obtain ⟨typed, hcheck, hexpr⟩ := spells_interpolation hkind (spells_zoomLevel.mpr rfl)
    (List.cons_ne_nil _ _ : stops ≠ []) (by decide)
  obtain ⟨number, heval, hnumber⟩ := h kind stops typed hcheck (by decide)
    ⟨.integer 1, .integer 10, false⟩ (by simp [stops])
  have hvalue : typed.expr.eval ⟨some (ofInt 1), none⟩ = .ok (.number (ofInt 10 +
      (ofInt 20 - ofInt 10) * (Interpolation.cubicBezier 0.5 far 0.5 (ofInt 0)).factor
        (ofInt 1) (ofInt 1) (ofInt 2))) := by
    rw [hexpr]
    rfl
  obtain rfl := Value.number.inj (Except.ok.inj (hvalue.symm.trans heval))
  rw [((beq_iff _ _).mp hnumber).1] at hnan
  contradiction

end Symbology
