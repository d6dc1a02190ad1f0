import Symbology.Proofs.Expr.Dependence
import Symbology.Proofs.Expr.Stops
import Symbology.Proofs.Value.Type

set_option autoImplicit false

/-! # Operators that choose

The operators with branches, stops or alternatives compute nothing of their own: they pass on the
value of one of their outputs. `passed?` is this output. What is passed on keeps its type, also
where `interpolate` blends two outputs (`type_of_passed`). -/

namespace Symbology

/-! ## Tests of outcomes -/

namespace Outcome

/-- The outcome is the truth value true. -/
def isTrue : Outcome → Bool
  | .ok (.bool b) => b
  | _ => false

/-- The outcome is `null`. -/
def isNull : Outcome → Bool
  | .ok value => value.isNull
  | .error _ => false

end Outcome

theorem Value.needBool_eq_ok_iff {value : Value} {b : Bool} :
    value.needBool = .ok b ↔ value = .bool b := by
  cases value <;> simp [Value.needBool]

namespace Expr

/-! ## What is passed on -/

/-- The operator passes on the value of one of its outputs. -/
def chooses : Expr → Bool
  | .case .. | .select .. | .coalesce _ | .step .. | .interpolate .. => true
  | _ => false

/-- The outputs of an operator that chooses. -/
def outputs : Expr → List Expr
  | .case branches otherwise => branches.map (·.2) ++ [otherwise]
  | .select _ branches otherwise => branches.map (·.2) ++ [otherwise]
  | .coalesce args => args
  | .step _ first stops => first :: stops.map (·.2)
  | .interpolate _ _ stops => stops.map (·.2)
  | _ => []

/-- The output whose value is passed on, if the operator has a value. Between two stops it is the
output of the lower one. -/
def passed? (context : Context) : Expr → Option Expr
  | .case branches otherwise =>
    some (((branches.find? (fun branch => Outcome.isTrue (eval context branch.1))).map
      (·.2)).getD otherwise)
  | .select input branches otherwise =>
    (eval context input).toOption.map (fun value =>
      ((branches.find? (fun branch => branch.1.contains value)).map (·.2)).getD otherwise)
  | .coalesce args => args.find? (fun arg => !Outcome.isNull (eval context arg))
  | .step input first stops =>
    (Outcome.stopInput .step (eval context input)).toOption.map (fun x =>
      Outcome.stopBelow x first stops)
  | .interpolate _ input stops =>
    (Outcome.stopInput .interpolate (eval context input)).toOption.bind (fun x =>
      match stops with
      | [] => none
      | (label, output) :: rest =>
        some (if x ≤ label then output else Outcome.stopBelow x output rest))
  | _ => none

/-! ## It is one of the outputs -/

theorem stopBelow_mem (x : Float) (first : Expr) (stops : List (Float × Expr)) :
    Outcome.stopBelow x first stops ∈ first :: stops.map (·.2) := by
  induction stops generalizing first with
  | nil => exact List.mem_cons_self
  | cons stop rest ih =>
    obtain ⟨label, output⟩ := stop
    rw [Outcome.stopBelow]
    split
    · exact List.mem_cons_of_mem first (ih output)
    · exact List.mem_cons_self

/-- The output of the branch that is found, or the last output. -/
theorem found_mem {α : Type} (test : α × Expr → Bool) (branches : List (α × Expr))
    (otherwise : Expr) :
    ((branches.find? test).map (·.2)).getD otherwise ∈ branches.map (·.2) ++ [otherwise] := by
  cases hfound : branches.find? test with
  | none => exact List.mem_append_right _ List.mem_cons_self
  | some branch =>
    exact List.mem_append_left _ (List.mem_map_of_mem (List.mem_of_find?_eq_some hfound))

theorem passed_mem {context : Context} {expr output : Expr}
    (h : expr.passed? context = some output) : output ∈ expr.outputs := by
  cases expr with
  | case branches otherwise =>
    obtain rfl := Option.some.inj h
    exact found_mem ..
  | select input branches otherwise =>
    obtain ⟨value, _, rfl⟩ := Option.map_eq_some_iff.mp h
    exact found_mem ..
  | coalesce args => exact List.mem_of_find?_eq_some h
  | step input first stops =>
    obtain ⟨x, _, rfl⟩ := Option.map_eq_some_iff.mp h
    exact stopBelow_mem x first stops
  | interpolate interpolation input stops =>
    obtain ⟨x, _, h⟩ := Option.bind_eq_some_iff.mp h
    cases stops with
    | nil => contradiction
    | cons stop rest =>
      obtain rfl := Option.some.inj h
      split
      · exact List.mem_cons_self
      · exact stopBelow_mem x stop.2 rest
  | _ => contradiction

/-! ## It has the value that is passed on -/

section Values

variable {context : Context} {value : Value}

theorem eval_case_found {branches : List (Expr × Expr)} {otherwise : Expr}
    (h : Outcome.case (evalPairs context branches) (eval context otherwise) = .ok value) :
    eval context (((branches.find? (fun branch => Outcome.isTrue (eval context branch.1))).map
      (·.2)).getD otherwise) = .ok value := by
  induction branches with
  | nil => exact h
  | cons branch rest ih =>
    obtain ⟨condition, output⟩ := branch
    simp only [evalPairs, Outcome.case, Except.bind_eq_ok_iff, Value.needBool_eq_ok_iff] at h
    obtain ⟨b, ⟨_, hcondition, rfl⟩, h⟩ := h
    cases b with
    | true =>
      rw [List.find?_cons_of_pos (by simp [hcondition, Outcome.isTrue])]
      exact h
    | false =>
      rw [List.find?_cons_of_neg (by simp [hcondition, Outcome.isTrue])]
      exact ih h

/-- The outcome of a choice by labels is that of the first branch with a label that equals the
input. -/
theorem eval_select {input otherwise : Expr} {branches : List (List Value × Expr)} :
    eval context (.select input branches otherwise) =
      (eval context input).bind (fun v => eval context
        (((branches.find? (fun branch => branch.1.contains v)).map (·.2)).getD otherwise)) := by
  rw [eval, Outcome.select]
  refine congrArg _ (funext fun v => ?_)
  -- only the labels are looked at, and these are the same before and after evaluation
  have hlabels : (evalBranches context branches).find? (fun branch => branch.1.contains v) =
      (branches.find? (fun branch => branch.1.contains v)).map
        (fun branch => (branch.1, eval context branch.2)) := by
    rw [evalBranches_eq_map, List.find?_map]
    rfl
  rw [hlabels]
  cases branches.find? (fun branch => branch.1.contains v) <;> rfl

/-- The value of `coalesce` is that of the first argument that is not `null`. -/
theorem eval_coalesce_found {args : List Expr}
    (h : Outcome.coalesce (evalArgs context args) = .ok value) :
    match args.find? (fun arg => !Outcome.isNull (eval context arg)) with
    | some arg => eval context arg = .ok value
    | none => value = .null := by
  induction args with
  | nil => exact (Except.ok.inj h).symm
  | cons arg rest ih =>
    obtain ⟨v, hv, h⟩ := Except.bind_eq_ok_iff.mp h
    split at h
    next hnull =>
      rw [List.find?_cons_of_neg (by simp [hv, Outcome.isNull, hnull])]
      exact ih h
    next hnull =>
      rw [List.find?_cons_of_pos (by simp [hv, Outcome.isNull, hnull])]
      exact hv.trans h

theorem eval_stopBelow (x : Float) (first : Expr) (stops : List (Float × Expr)) :
    Outcome.stopBelow x (eval context first) (evalStops context stops) =
      eval context (Outcome.stopBelow x first stops) := by
  refine Outcome.stopBelow_rel (R := fun outcome output => outcome = eval context output) rfl ?_
  rw [evalStops_eq_map, List.forall₂_map_left_iff, List.forall₂_same]
  exact fun stop _ => ⟨rfl, rfl⟩

/-- Between two stops the value has the type of the lower output. -/
theorem type_of_between {interpolation : Interpolation} {x lower : Float} {output : Expr}
    {stops : List (Float × Expr)}
    (h : Outcome.between interpolation x lower (eval context output) (evalStops context stops) =
      .ok value) :
    ∃ passed, eval context (Outcome.stopBelow x output stops) = .ok passed ∧
      passed.type = value.type := by
  induction stops generalizing lower output with
  | nil => exact ⟨value, h, rfl⟩
  | cons stop rest ih =>
    obtain ⟨upper, next⟩ := stop
    -- both recursions pass the stop, or both stay at the output before it
    rw [evalStops, Outcome.between] at h
    rw [Outcome.stopBelow]
    split at h
    next hbelow =>
      rw [if_pos hbelow]
      exact ih h
    next hbelow =>
      rw [if_neg hbelow]
      simp only [Except.bind_eq_ok_iff] at h
      obtain ⟨a, ha, b, _, hblend⟩ := h
      exact ⟨a, ha, (Value.type_blend hblend).symm⟩

/-- **What is passed on keeps its type.** -/
theorem type_of_passed {expr output : Expr} (hpassed : expr.passed? context = some output)
    (h : eval context expr = .ok value) :
    ∃ passed, eval context output = .ok passed ∧ passed.type = value.type := by
  cases expr with
  | case branches otherwise =>
    obtain rfl := Option.some.inj hpassed
    exact ⟨value, eval_case_found h, rfl⟩
  | select input branches otherwise =>
    obtain ⟨v, hinput, rfl⟩ := Option.map_eq_some_iff.mp hpassed
    rw [Except.toOption_eq_some_iff] at hinput
    rw [eval_select, hinput] at h
    exact ⟨value, h, rfl⟩
  | coalesce args =>
    have hfound := eval_coalesce_found h
    rw [show args.find? _ = some output from hpassed] at hfound
    exact ⟨value, hfound, rfl⟩
  | step input first stops =>
    obtain ⟨x, hinput, rfl⟩ := Option.map_eq_some_iff.mp hpassed
    rw [Except.toOption_eq_some_iff] at hinput
    rw [eval, Outcome.step, hinput] at h
    rw [← eval_stopBelow]
    exact ⟨value, h, rfl⟩
  | interpolate interpolation input stops =>
    obtain ⟨x, hinput, hpassed⟩ := Option.bind_eq_some_iff.mp hpassed
    rw [Except.toOption_eq_some_iff] at hinput
    rw [eval, Outcome.interpolate, hinput] at h
    cases stops with
    | nil => contradiction
    | cons stop rest =>
      obtain rfl := Option.some.inj hpassed
      obtain ⟨label, output⟩ := stop
      simp only [evalStops, Except.bind] at h
      split at h
      next hle =>
        rw [if_pos hle]
        exact ⟨value, h, rfl⟩
      next hle =>
        rw [if_neg hle]
        exact type_of_between h
  | _ => contradiction

/-- An operator that chooses and passes nothing on has no value but `null`. -/
theorem null_of_not_passed {expr : Expr} (hchooses : expr.chooses = true)
    (hpassed : expr.passed? context = none) (h : eval context expr = .ok value) :
    value = .null := by
  cases expr with
  | case branches otherwise => contradiction
  | select input branches otherwise =>
    obtain ⟨v, hinput, _⟩ := Except.bind_eq_ok_iff.mp h
    rw [passed?, hinput] at hpassed
    contradiction
  | coalesce args =>
    have hfound := eval_coalesce_found h
    rw [show args.find? _ = none from hpassed] at hfound
    exact hfound
  | step input first stops =>
    obtain ⟨x, hinput, _⟩ := Except.bind_eq_ok_iff.mp h
    rw [passed?, hinput] at hpassed
    contradiction
  | interpolate interpolation input stops =>
    obtain ⟨x, hinput, h⟩ := Except.bind_eq_ok_iff.mp h
    rw [passed?, hinput] at hpassed
    cases stops with
    | nil => exact (Except.ok.inj h).symm
    | cons stop rest => contradiction
  | _ => contradiction

end Values

end Expr

end Symbology
