import Symbology.Proofs.Except
import Symbology.Proofs.Expr.Dependence
import Symbology.Proofs.Expr.Stops

set_option autoImplicit false

/-! # Outcomes of curves

Where the labels of a curve ascend, its outcome comes from the stops next to the input. They can be
found by a search that looks for the place where the labels rise above the input (`SplitsAt`):
wherever it ends, the stops next to this place are those that count, and they are there
(`SearchesInBounds`). -/

namespace Symbology

/-! ## Searching labels -/

/-- The place where labels rise above `x`: those before it are at or below `x`, and those behind it
are not. -/
structure SplitsAt (labels : List Float) (x : Float) (index : Nat) : Prop where
  le_length : index ≤ labels.length
  before : ∀ label ∈ labels.take index, label ≤ x
  behind : ∀ label ∈ labels.drop index, ¬label ≤ x

/-- Labels that ascend rise above `x` at some place. -/
theorem exists_splitsAt {labels : List Float} (h : labels.Pairwise (· < ·)) (x : Float) :
    ∃ index, SplitsAt labels x index := by
  induction labels with
  | nil => exact ⟨0, by simp, by simp, by simp⟩
  | cons label rest ih =>
    obtain ⟨hbelow, hrest⟩ := List.pairwise_cons.mp h
    by_cases hle : label ≤ x
    · obtain ⟨index, hlength, hbefore, hbehind⟩ := ih hrest
      exact ⟨index + 1, Nat.succ_le_succ hlength, List.forall_mem_cons.mpr ⟨hle, hbefore⟩, hbehind⟩
    · refine ⟨0, Nat.zero_le _, by simp, List.forall_mem_cons.mpr ⟨hle, ?_⟩⟩
      intro other hother hle'
      exact hle (Number.le_of_lt (Number.lt_of_lt_of_le (hbelow other hother) hle'))

section SplitsAt

/-- An item of a list and the next one stand next to each other. -/
theorem infix_neighbors {α : Type} {items : List α} {index : Nat}
    (h : index + 1 < items.length) : [items[index], items[index + 1]] <:+: items := by
  have hindex : index < items.length := by omega
  refine ⟨items.take index, items.drop (index + 2), ?_⟩
  have hdrop : [items[index], items[index + 1]] ++ items.drop (index + 2) = items.drop index := by
    rw [List.drop_eq_getElem_cons hindex, List.drop_eq_getElem_cons h]
    rfl
  rw [List.append_assoc, hdrop, List.take_append_drop]

variable {α : Type} {stops : List (Float × α)} {x : Float} {index : Nat}

/-- The stops at or below `x` are those before the place. -/
theorem SplitsAt.filter_eq (h : SplitsAt (stops.map (·.1)) x index) :
    stops.filter (fun stop => decide (stop.1 ≤ x)) = stops.take index := by
  obtain ⟨_, hbefore, hbehind⟩ := h
  rw [← List.map_take, List.forall_mem_map] at hbefore
  rw [← List.map_drop, List.forall_mem_map] at hbehind
  conv_lhs => rw [← List.take_append_drop index stops]
  rw [List.filter_append,
    List.filter_eq_self.mpr (fun stop hstop => decide_eq_true (hbefore stop hstop)),
    List.filter_eq_nil_iff.mpr (fun stop hstop => by simpa using hbehind stop hstop),
    List.append_nil]

/-- The stop before the place is at or below `x`. -/
theorem SplitsAt.lower_le (h : SplitsAt (stops.map (·.1)) x index) (hpos : 0 < index)
    {lower : Float × α} (hlower : stops[index - 1]? = some lower) : lower.1 ≤ x := by
  refine h.before lower.1 ?_
  rw [← List.map_take]
  refine List.mem_map_of_mem (List.mem_of_getElem? (i := index - 1) ?_)
  rwa [List.getElem?_take_of_lt (by omega)]

/-- The stop at the place is not. -/
theorem SplitsAt.not_upper_le (h : SplitsAt (stops.map (·.1)) x index) {upper : Float × α}
    (hupper : stops[index]? = some upper) : ¬upper.1 ≤ x := by
  refine h.behind upper.1 ?_
  rw [← List.map_drop]
  refine List.mem_map_of_mem (List.mem_of_getElem? (i := 0) ?_)
  rwa [List.getElem?_drop, Nat.add_zero]

/-- Above the first stop and below the last one the place has a stop on both sides. -/
theorem SplitsAt.exists_neighbors (h : SplitsAt (stops.map (·.1)) x index) (hne : stops ≠ [])
    (hcomparable : ∀ stop ∈ stops, stop.1.isNaN = false) (hnan : x.isNaN = false)
    (hbelow : ¬x ≤ (stops.head hne).1) (habove : ¬(stops.getLast hne).1 ≤ x) :
    ∃ lower upper, 0 < index ∧ stops[index - 1]? = some lower ∧ stops[index]? = some upper ∧
      [lower, upper] <:+: stops ∧ lower.1 ≤ x ∧ x < upper.1 := by
  cases index with
  | zero =>
    -- the first stop is not behind the place
    have hle : (stops.head hne).1 ≤ x :=
      Number.le_of_lt (Number.lt_of_not_le (hcomparable _ (List.head_mem hne)) hnan hbelow)
    have hfirst : stops[0]? = some (stops.head hne) := by
      rw [← List.head?_eq_getElem?, List.head?_eq_some_head hne]
    exact absurd hle (h.not_upper_le hfirst)
  | succ index =>
    have hlength : index + 1 ≤ stops.length := by simpa using h.le_length
    have hlower : stops[index]? = some stops[index] := List.getElem?_eq_getElem (by omega)
    have hle : stops[index].1 ≤ x := h.lower_le (Nat.succ_pos index) hlower
    -- the last stop is not before the place
    have hlt : index + 1 < stops.length := by
      refine lt_of_le_of_ne hlength (fun hend => habove ?_)
      have hindex : stops.length - 1 = index := by omega
      rwa [List.getLast_eq_getElem, getElem_congr_idx hindex]
    have hupper : stops[index + 1]? = some stops[index + 1] := List.getElem?_eq_getElem hlt
    exact ⟨_, _, Nat.succ_pos index, hlower, hupper, infix_neighbors hlt, hle,
      Number.lt_of_not_le hnan (hcomparable _ (List.getElem_mem hlt)) (h.not_upper_le hupper)⟩

end SplitsAt

namespace Expr

variable {context : Context} {input first : Expr} {stops : List (Float × Expr)} {x : Float}
  {interpolation : Interpolation}

/-! ## Stops next to the input -/

/-- The input of a curve is comparable. -/
theorem isNaN_of_stopInput {operator : StopOperator} {outcome : Outcome}
    (h : Outcome.stopInput operator outcome = .ok x) : x.isNaN = false := by
  obtain ⟨y, _, h⟩ := Except.bind_eq_ok_iff.mp h
  split at h
  · contradiction
  next hnan =>
    obtain rfl := Except.ok.inj h
    exact Bool.eq_false_of_not_eq_true hnan

/-- A number is an input unless it is "not a number". -/
theorem stopInput_number (operator : StopOperator) (heval : eval context input = .ok (.number x))
    (hnan : x.isNaN = false) : Outcome.stopInput operator (eval context input) = .ok x := by
  have hread : Outcome.stopInput operator (.ok (.number x)) =
      if x.isNaN then .error (.nanInput operator) else .ok x := rfl
  rw [heval, hread, hnan]
  rfl

/-- So is the zoom level. -/
theorem stopInput_zoom {zoom : Float} {feature : Option Feature} (operator : StopOperator)
    (hnan : zoom.isNaN = false) :
    Outcome.stopInput operator (eval ⟨some zoom, feature⟩ .zoom) = .ok zoom :=
  stopInput_number operator rfl hnan

/-- The label of a stop and its outcome. -/
def stopOutcome (context : Context) (stop : Float × Expr) : Float × Outcome :=
  (stop.1, eval context stop.2)

theorem evalStops_eq (context : Context) (stops : List (Float × Expr)) :
    evalStops context stops = stops.map (stopOutcome context) :=
  evalStops_eq_map context stops

theorem ascending_outcomes (context : Context) (h : (stops.map (·.1)).Pairwise (· < ·)) :
    ((stops.map (stopOutcome context)).map (·.1)).Pairwise (· < ·) := by
  rw [List.map_map]
  exact h

/-- A step has the outcome of the last stop at or below the input. -/
theorem eval_step (hinput : Outcome.stopInput .step (eval context input) = .ok x)
    (hascending : (stops.map (·.1)).Pairwise (· < ·)) :
    eval context (.step input first stops) =
      eval context (((stops.filter (fun stop => decide (stop.1 ≤ x))).map (·.2)).getLast?.getD
        first) := by
  rw [eval, Outcome.step, hinput, Except.bind, evalStops_eq,
    Outcome.stopBelow_eq_getLast (ascending_outcomes context hascending), List.filter_map,
    List.map_map, List.getLast?_map, List.getLast?_map, ← Option.getD_map (eval context),
    Option.map_map]
  rfl

/-- An interpolation is looked at from the lowest stop up. -/
theorem eval_interpolate_cons {stop : Float × Expr} {rest : List (Float × Expr)}
    (hinput : Outcome.stopInput .interpolate (eval context input) = .ok x) :
    eval context (.interpolate interpolation input (stop :: rest)) =
      if x ≤ stop.1 then eval context stop.2
      else Outcome.between interpolation x stop.1 (eval context stop.2)
        (rest.map (stopOutcome context)) := by
  rw [eval, Outcome.interpolate, hinput, evalStops_eq]
  rfl

/-- At or below the first stop an interpolation has the outcome of that stop. -/
theorem eval_interpolate_below
    (hinput : Outcome.stopInput .interpolate (eval context input) = .ok x) {stop : Float × Expr}
    (hfirst : stops.head? = some stop) (hle : x ≤ stop.1) :
    eval context (.interpolate interpolation input stops) = eval context stop.2 := by
  obtain ⟨rest, rfl⟩ := List.head?_eq_some_iff.mp hfirst
  rw [eval_interpolate_cons hinput, if_pos hle]

/-- At or above the last stop an interpolation has the outcome of that stop. -/
theorem eval_interpolate_above
    (hinput : Outcome.stopInput .interpolate (eval context input) = .ok x)
    (hascending : (stops.map (·.1)).Pairwise (· < ·)) {last : Float × Expr}
    (hlast : stops.getLast? = some last) (hle : last.1 ≤ x) :
    eval context (.interpolate interpolation input stops) = eval context last.2 := by
  cases stops with
  | nil => contradiction
  | cons stop rest =>
    rw [eval_interpolate_cons hinput]
    split
    next hbelow =>
      -- at or below the first stop there is no other
      rcases List.mem_cons.mp (List.mem_of_getLast? hlast) with rfl | hrest
      · rfl
      · have habove := (List.pairwise_cons.mp hascending).1 _ (List.mem_map_of_mem hrest)
        exact absurd hbelow (Number.not_le_of_lt (Number.lt_of_lt_of_le habove hle))
    next =>
      have hlast' : ((stop :: rest).map (stopOutcome context)).getLast? =
          some (stopOutcome context last) := by
        rw [List.getLast?_map, hlast]
        rfl
      exact Outcome.between_last (ascending_outcomes context hascending) hlast' hle

/-- An input above one stop is above the first stop. -/
theorem not_le_head (hascending : (stops.map (·.1)).Pairwise (· < ·)) {stop : Float × Expr}
    (hstop : stop ∈ stops) (hlt : stop.1 < x) :
    ∀ first, stops.head? = some first → ¬x ≤ first.1 := by
  intro first hfirst
  obtain ⟨rest, rfl⟩ := List.head?_eq_some_iff.mp hfirst
  rcases List.mem_cons.mp hstop with rfl | hrest
  · exact Number.not_le_of_lt hlt
  · have habove := (List.pairwise_cons.mp hascending).1 _ (List.mem_map_of_mem hrest)
    exact Number.not_le_of_lt (Number.lt_trans habove hlt)

/-- Between two stops an interpolation blends their outcomes. -/
theorem eval_interpolate_between
    (hinput : Outcome.stopInput .interpolate (eval context input) = .ok x)
    (hascending : (stops.map (·.1)).Pairwise (· < ·))
    (hfirst : ∀ stop, stops.head? = some stop → ¬x ≤ stop.1) {lower upper : Float × Expr}
    (hnext : [lower, upper] <:+: stops) (hlower : lower.1 ≤ x) (hupper : x < upper.1) :
    eval context (.interpolate interpolation input stops) =
      (eval context lower.2).bind (fun a => (eval context upper.2).bind (fun b =>
        Value.blend (interpolation.factor x lower.1 upper.1) a b)) := by
  cases stops with
  | nil => exact absurd hnext.length_le (by simp)
  | cons stop rest =>
    rw [eval_interpolate_cons hinput, if_neg (hfirst stop rfl)]
    exact Outcome.between_neighbors (ascending_outcomes context hascending)
      (hnext.map (stopOutcome context)) hlower hupper

/-! ## Stops that a search finds -/

/-- A search for the input among the stops of a node ends at some index, and wherever it ends, the
stops next to the index are there and the outcome of the node is theirs. Nothing is searched for an
interpolation at or below its first stop, or at or above its last one. -/
def SearchesInBounds (context : Context) : Expr → Prop
  | .step input first stops =>
    ∀ x, Outcome.stopInput .step (eval context input) = .ok x →
      (∃ index, SplitsAt (stops.map (·.1)) x index) ∧
      ∀ index, SplitsAt (stops.map (·.1)) x index →
        (index = 0 ∧ eval context (.step input first stops) = eval context first) ∨
        ∃ stop, 0 < index ∧ stops[index - 1]? = some stop ∧
          eval context (.step input first stops) = eval context stop.2
  | .interpolate interpolation input stops =>
    ∀ x, Outcome.stopInput .interpolate (eval context input) = .ok x →
      (∃ first, stops.head? = some first ∧ x ≤ first.1 ∧
        eval context (.interpolate interpolation input stops) = eval context first.2) ∨
      (∃ last, stops.getLast? = some last ∧ last.1 ≤ x ∧
        eval context (.interpolate interpolation input stops) = eval context last.2) ∨
      (∃ index, SplitsAt (stops.map (·.1)) x index) ∧
      ∀ index, SplitsAt (stops.map (·.1)) x index →
        ∃ lower upper, 0 < index ∧ stops[index - 1]? = some lower ∧ stops[index]? = some upper ∧
          eval context (.interpolate interpolation input stops) =
            (eval context lower.2).bind (fun a => (eval context upper.2).bind (fun b =>
              Value.blend (interpolation.factor x lower.1 upper.1) a b))
  | _ => True

/-- The stop before the place is the one that a step follows. -/
theorem searchesInBounds_step (hascending : (stops.map (·.1)).Pairwise (· < ·)) :
    SearchesInBounds context (.step input first stops) := by
  intro x hinput
  refine ⟨exists_splitsAt hascending x, fun index hsplit => ?_⟩
  rw [eval_step hinput hascending, hsplit.filter_eq, List.getLast?_map]
  cases index with
  | zero => exact Or.inl ⟨rfl, by simp⟩
  | succ index =>
    have hlt : index < stops.length := by simpa using hsplit.le_length
    refine Or.inr ⟨stops[index], Nat.succ_pos _, List.getElem?_eq_getElem hlt, ?_⟩
    rw [List.getLast?_take, if_neg (Nat.succ_ne_zero _), Nat.add_sub_cancel,
      List.getElem?_eq_getElem hlt]
    rfl

/-- The stops around the place are those that an interpolation blends. -/
theorem searchesInBounds_interpolate (hne : stops ≠ [])
    (hcomparable : ∀ stop ∈ stops, stop.1.isNaN = false)
    (hascending : (stops.map (·.1)).Pairwise (· < ·)) :
    SearchesInBounds context (.interpolate interpolation input stops) := by
  intro x hinput
  have hnan : x.isNaN = false := isNaN_of_stopInput hinput
  have hfirst : stops.head? = some (stops.head hne) := List.head?_eq_some_head hne
  have hlast : stops.getLast? = some (stops.getLast hne) := List.getLast?_eq_some_getLast hne
  by_cases hbelow : x ≤ (stops.head hne).1
  · exact Or.inl ⟨_, hfirst, hbelow, eval_interpolate_below hinput hfirst hbelow⟩
  by_cases habove : (stops.getLast hne).1 ≤ x
  · exact Or.inr (Or.inl ⟨_, hlast, habove, eval_interpolate_above hinput hascending hlast habove⟩)
  refine Or.inr (Or.inr ⟨exists_splitsAt hascending x, fun index hsplit => ?_⟩)
  obtain ⟨lower, upper, hpos, hlower, hupper, hneighbors, hle, hlt⟩ :=
    hsplit.exists_neighbors hne hcomparable hnan hbelow habove
  refine ⟨lower, upper, hpos, hlower, hupper, ?_⟩
  refine eval_interpolate_between hinput hascending ?_ hneighbors hle hlt
  rintro stop hstop
  obtain rfl := Option.some.inj (hfirst.symm.trans hstop)
  exact hbelow

end Expr

end Symbology
