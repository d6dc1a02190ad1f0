import Symbology.Proofs.Expr.Nodes
import Symbology.Proofs.Typing.Inference

set_option autoImplicit false

/-! # Well-formed trees

What a rule asks of the number of arguments, of branches and of labels holds at the node that the
rule makes, and guards are nodes of the same kind. So every node of an expression that is checked is
well-formed (`Json.wellFormed_of_check`). -/

namespace Symbology

open Typing

namespace Expr

/-- What holds of the arguments, branches and labels of a node. -/
def WellFormed : Expr → Prop
  | .arithmetic operation args => OperandCount operation args.length
  | .select _ branches _ => branches ≠ [] ∧ DistinctLabels (branches.map (·.1))
  | .assertion _ args => args ≠ []
  | .conversion target args => ConvertibleCount target args.length
  | .rgba args => args.length = 3 ∨ args.length = 4
  | .step _ _ stops => AscendingLabels (stops.map (·.1))
  | .interpolate _ _ stops => stops ≠ [] ∧ AscendingLabels (stops.map (·.1))
  | _ => True

theorem wellFormed_guard (target : ValueType) (expr : Expr) :
    (Typed.guard target expr).WellFormed := by
  cases target with
  | color => exact Nat.le_refl 1
  | _ => exact List.cons_ne_nil expr []

theorem children_guard (target : ValueType) (expr : Expr) :
    (Typed.guard target expr).children = [expr] := by
  cases target <;> rfl

end Expr

/-- Taking the expressions of outputs leaves their labels as they are. -/
theorem Typing.labels_map_expr {α : Type} (outputs : List (α × Typed)) :
    (outputs.map (Prod.map id Typed.expr)).map (·.1) = outputs.map (·.1) := by
  rw [List.map_map]
  rfl

/-- **Every node of a derived expression is well-formed.** -/
theorem Typing.Derives.wellFormed {stage : Stage} {expected : Option ValueType} {typed : Typed}
    (h : Derives stage expected typed) : ∀ node ∈ typed.expr.nodes, node.WellFormed := by
  induction h with
  | @fit expected typed fitted _ fits ih =>
    rcases expr_of_reconcile fits with hsame | ⟨target, hguard⟩
    · rw [hsame]
      exact ih
    · -- a guard is put around the expression
      rw [hguard]
      refine Expr.forall_nodes_of_children (Expr.wellFormed_guard target _) ?_
      rw [Expr.children_guard, List.forall_mem_singleton]
      exact ih
  | constant | properties | id | geometryType | zoom =>
    exact Expr.forall_nodes_of_children trivial (by simp [Typed.literal, Expr.children])
  | get _ ih | has _ ih | not _ ih =>
    exact Expr.forall_nodes_of_children trivial (List.forall_mem_singleton.mpr ih)
  | equality _ _ _ _ ihLeft ihRight | order _ _ _ ihLeft ihRight =>
    refine Expr.forall_nodes_of_children trivial (List.forall_mem_cons.mpr ⟨ihLeft, ?_⟩)
    exact List.forall_mem_singleton.mpr ihRight
  | arithmetic count _ ih =>
    refine Expr.forall_nodes_of_children ?_ (List.forall_mem_map.mpr ih)
    simpa [Expr.WellFormed] using count
  | all _ ih | any _ ih => exact Expr.forall_nodes_of_children trivial (List.forall_mem_map.mpr ih)
  | rgba count _ ih =>
    refine Expr.forall_nodes_of_children ?_ (List.forall_mem_map.mpr ih)
    simpa [Expr.WellFormed] using count
  | coalesce _ _ _ _ _ ih =>
    exact Expr.forall_nodes_of_children trivial (List.forall_mem_map.mpr ih)
  | assertion _ nonempty _ ih =>
    refine Expr.forall_nodes_of_children ?_ (List.forall_mem_map.mpr ih)
    simpa [Expr.WellFormed] using nonempty
  | conversion count _ ih =>
    refine Expr.forall_nodes_of_children ?_ (List.forall_mem_map.mpr ih)
    simpa [Expr.WellFormed] using count
  | case _ _ _ _ _ ihCondition ihOutput ihConditions ihOutputs ihOtherwise =>
    refine Expr.forall_nodes_of_children trivial ?_
    simp only [Expr.children, List.forall_mem_append, List.forall_mem_flatMap, List.forall_mem_cons,
      List.forall_mem_map]
    refine ⟨⟨⟨ihCondition, ihOutput, by simp⟩, fun branch hbranch => ?_⟩, ihOtherwise, by simp⟩
    exact ⟨ihConditions branch hbranch, ihOutputs branch hbranch, by simp⟩
  | select _ distinct _ _ _ ihInput ihOutput ihOutputs ihOtherwise =>
    refine Expr.forall_nodes_of_children ⟨by simp, ?_⟩ ?_
    · rwa [List.map_cons, labels_map_expr]
    simp only [Expr.children, List.forall_mem_append, List.forall_mem_map, List.forall_mem_cons]
    exact ⟨ihInput, ⟨ihOutput, ihOutputs⟩, ihOtherwise, by simp⟩
  | step _ labels _ _ ihInput ihFirst ihOutputs =>
    refine Expr.forall_nodes_of_children ?_ ?_
    · rwa [Expr.WellFormed, labels_map_expr]
    simp only [Expr.children, List.forall_mem_map, List.forall_mem_cons]
    exact ⟨ihInput, ihFirst, ihOutputs⟩
  | interpolate _ labels _ _ _ ihInput ihFirst ihOutputs =>
    refine Expr.forall_nodes_of_children ⟨by simp, ?_⟩ ?_
    · rwa [List.map_cons, labels_map_expr]
    simp only [Expr.children, List.forall_mem_map, List.forall_mem_cons]
    exact ⟨ihInput, ihFirst, ihOutputs⟩

/-- **Every node of an expression that is checked is well-formed**, whatever type is wanted. -/
theorem Json.wellFormed_of_check {json : Json} {expected : Option ValueType} {typed : Typed}
    (h : json.check expected = .ok typed) : ∀ node ∈ typed.expr.nodes, node.WellFormed :=
  (check_derives h).wellFormed

end Symbology
