import Symbology.Expr.Outcome
import Symbology.Proofs.Number.Order

set_option autoImplicit false

/-! # Which stops an input lies between

The operators with stops pass over the stops from left to right. Where the labels ascend, this finds
the last label at or below the input (`stopBelow_eq_getLast`), the last stop when the input is
beyond it (`between_last`), or the two neighbors that the input lies between
(`between_neighbors`). -/

namespace Symbology.Outcome

variable {α : Type} {x : Float}

/-! ## Step -/

/-- Stops with the same labels are left at the same place. -/
theorem stopBelow_rel {α β : Type} {R : α → β → Prop} {a : α} {b : β} {as : List (Float × α)}
    {bs : List (Float × β)} (hfirst : R a b)
    (hrest : List.Forall₂ (fun s t => t.1 = s.1 ∧ R s.2 t.2) as bs) :
    R (stopBelow x a as) (stopBelow x b bs) := by
  induction hrest generalizing a b with
  | nil => exact hfirst
  | @cons s t as bs hstop _ ih =>
    obtain ⟨label, output⟩ := s
    obtain ⟨_, output'⟩ := t
    obtain ⟨rfl, houtput⟩ := hstop
    rw [stopBelow, stopBelow]
    split
    · exact ih houtput
    · exact hfirst

/-- **The output of the last stop at or below the input**, and the first output if there is none. -/
theorem stopBelow_eq_getLast {first : α} {stops : List (Float × α)}
    (h : (stops.map (·.1)).Pairwise (· < ·)) :
    stopBelow x first stops =
      ((stops.filter (fun stop => decide (stop.1 ≤ x))).map (·.2)).getLast?.getD first := by
  induction stops generalizing first with
  | nil => rfl
  | cons stop rest ih =>
    obtain ⟨label, output⟩ := stop
    rw [List.map_cons, List.pairwise_cons] at h
    obtain ⟨hbelow, hrest⟩ := h
    rw [stopBelow]
    by_cases hle : label ≤ x
    · rw [if_pos hle, ih hrest, List.filter_cons_of_pos (by simpa using hle), List.map_cons,
        List.getLast?_cons, Option.getD_some]
    · -- all other labels are above this one, so they are above the input too
      have hnone : (rest.filter (fun stop => decide (stop.1 ≤ x))) = [] := by
        rw [List.filter_eq_nil_iff]
        intro other hother
        have habove : label < other.1 := hbelow _ (List.mem_map_of_mem hother)
        simpa using fun hle' : other.1 ≤ x =>
          hle (Number.le_of_lt (Number.lt_of_lt_of_le habove hle'))
      rw [if_neg hle, List.filter_cons_of_neg (by simpa using hle), hnone]
      rfl

/-! ## Interpolate -/

variable {interpolation : Interpolation} {lower : Float} {output : Outcome}
  {stops : List (Float × Outcome)}

/-- At or above the last label the output is the last. -/
theorem between_last (h : (lower :: stops.map (·.1)).Pairwise (· < ·))
    {last : Float × Outcome} (hlast : ((lower, output) :: stops).getLast? = some last)
    (hle : last.1 ≤ x) : between interpolation x lower output stops = last.2 := by
  induction stops generalizing lower output with
  | nil =>
    obtain rfl : (lower, output) = last := by simpa using hlast
    rfl
  | cons stop rest ih =>
    obtain ⟨upper, next⟩ := stop
    rw [List.map_cons, List.pairwise_cons] at h
    have hlast' : ((upper, next) :: rest).getLast? = some last := by
      simpa [List.getLast?_cons_cons] using hlast
    have hupper : upper ≤ x := by
      rcases List.mem_cons.mp (List.mem_of_getLast? hlast') with rfl | hmem
      · exact hle
      · have habove := (List.pairwise_cons.mp h.2).1 _ (List.mem_map_of_mem hmem)
        exact Number.le_of_lt (Number.lt_of_lt_of_le habove hle)
    rw [between, if_pos hupper]
    exact ih h.2 hlast'

/-- Between two labels next to each other the output is a blend of both. -/
theorem between_neighbors (h : (lower :: stops.map (·.1)).Pairwise (· < ·))
    {left right : Float × Outcome} (hnext : [left, right] <:+: (lower, output) :: stops)
    (hleft : left.1 ≤ x) (hright : x < right.1) :
    between interpolation x lower output stops =
      left.2.bind (fun a => right.2.bind (fun b =>
        Value.blend (interpolation.factor x left.1 right.1) a b)) := by
  induction stops generalizing lower output with
  | nil => simpa using hnext.length_le
  | cons stop rest ih =>
    obtain ⟨upper, next⟩ := stop
    rw [List.map_cons, List.pairwise_cons] at h
    rw [between]
    rcases List.infix_cons_iff.mp hnext with hhere | hlater
    · -- the input lies between the first two stops
      obtain ⟨rfl, htail⟩ := List.cons_prefix_cons.mp hhere
      obtain ⟨rfl, _⟩ := List.cons_prefix_cons.mp htail
      rw [if_neg (Number.not_le_of_lt hright)]
    · have hupper : upper ≤ x := by
        have hmem : left ∈ (upper, next) :: rest := hlater.subset List.mem_cons_self
        rcases List.mem_cons.mp hmem with rfl | hmem
        · exact hleft
        · have habove := (List.pairwise_cons.mp h.2).1 _ (List.mem_map_of_mem hmem)
          exact Number.le_of_lt (Number.lt_of_lt_of_le habove hleft)
      rw [if_pos hupper]
      exact ih h.2 hlater

end Symbology.Outcome
