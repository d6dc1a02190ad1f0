import Mathlib.Data.List.Basic
import Symbology.Expr.Constancy

set_option autoImplicit false

/-! # The nodes of an expression

`children` lists the expressions directly below a node, `nodes` the expression itself and all that
is below it. What holds of a node whenever it holds of the node's children holds everywhere
(`induction_children`), and the checks of `Expr.Constancy` are statements about all nodes
(`free_iff`). -/

namespace Symbology.Expr

/-! ## Children and nodes -/

/-- The expressions directly below a node, from left to right. -/
def children : Expr → List Expr
  | .literal _ | .properties | .id | .geometryType | .zoom => []
  | .get key | .has key => [key]
  | .not arg => [arg]
  | .comparison _ left right => [left, right]
  | .arithmetic _ args | .all args | .any args | .coalesce args | .assertion _ args
  | .conversion _ args | .rgba args => args
  | .case branches otherwise => branches.flatMap (fun branch => [branch.1, branch.2]) ++ [otherwise]
  | .select input branches otherwise => input :: (branches.map (·.2) ++ [otherwise])
  | .step input first stops => input :: first :: stops.map (·.2)
  | .interpolate _ input stops => input :: stops.map (·.2)

private theorem sizeOf_output {α : Type} [SizeOf α] {branches : List (α × Expr)} {branch : α × Expr}
    (h : branch ∈ branches) : sizeOf branch.2 < sizeOf branches := by
  rcases branch with ⟨left, right⟩
  have := List.sizeOf_lt_of_mem h
  simp only [Prod.mk.sizeOf_spec] at this ⊢
  omega

private theorem sizeOf_condition {branches : List (Expr × Expr)} {branch : Expr × Expr}
    (h : branch ∈ branches) : sizeOf branch.1 < sizeOf branches := by
  rcases branch with ⟨left, right⟩
  have := List.sizeOf_lt_of_mem h
  simp only [Prod.mk.sizeOf_spec] at this ⊢
  omega

theorem sizeOf_children {child expr : Expr} (h : child ∈ expr.children) :
    sizeOf child < sizeOf expr := by
  cases expr with
  | literal | properties | id | geometryType | zoom => exact absurd h List.not_mem_nil
  | get _ | has _ | not _ =>
    obtain rfl := List.mem_singleton.mp h
    simp
  | comparison relation left right =>
    rw [comparison.sizeOf_spec]
    rcases List.mem_pair.mp h with rfl | rfl <;> omega
  | arithmetic _ args | all args | any args | coalesce args | assertion _ args
  | conversion _ args | rgba args =>
    have := List.sizeOf_lt_of_mem (show child ∈ args from h)
    simp
    omega
  | case branches otherwise =>
    simp only [children, List.mem_append, List.mem_flatMap, List.mem_pair, List.mem_singleton] at h
    simp only [case.sizeOf_spec]
    rcases h with ⟨branch, hmem, rfl | rfl⟩ | rfl
    · have := sizeOf_condition hmem
      omega
    · have := sizeOf_output hmem
      omega
    · omega
  | select input branches otherwise =>
    simp only [children, List.mem_cons, List.mem_append, List.mem_map, List.not_mem_nil,
      or_false] at h
    simp only [select.sizeOf_spec]
    rcases h with rfl | ⟨branch, hmem, rfl⟩ | rfl
    · omega
    · have := sizeOf_output hmem
      omega
    · omega
  | step input first stops =>
    simp only [children, List.mem_cons, List.mem_map] at h
    simp only [step.sizeOf_spec]
    rcases h with rfl | rfl | ⟨stop, hmem, rfl⟩
    · omega
    · omega
    · have := sizeOf_output hmem
      omega
  | interpolate interpolation input stops =>
    simp only [children, List.mem_cons, List.mem_map] at h
    simp only [interpolate.sizeOf_spec]
    rcases h with rfl | ⟨stop, hmem, rfl⟩
    · omega
    · have := sizeOf_output hmem
      omega

/-- **Induction over the tree.** What holds of an expression whenever it holds of all expressions
directly below it holds of every expression. -/
@[elab_as_elim]
theorem induction_children {motive : Expr → Prop}
    (node : ∀ expr, (∀ child ∈ expr.children, motive child) → motive expr) (expr : Expr) :
    motive expr :=
  node expr (fun child _ => induction_children node child)
termination_by sizeOf expr
decreasing_by
  rename_i h
  exact sizeOf_children h

/-- The expression and all expressions below it, from the root down and from left to right. -/
def nodes (expr : Expr) : List Expr :=
  expr :: expr.children.attach.flatMap (fun child => nodes child.1)
termination_by sizeOf expr
decreasing_by exact sizeOf_children child.2

theorem nodes_eq (expr : Expr) : expr.nodes = expr :: expr.children.flatMap nodes := by
  rw [nodes]
  simp

theorem self_mem_nodes (expr : Expr) : expr ∈ expr.nodes := by
  rw [nodes_eq]
  exact List.mem_cons_self

theorem mem_nodes_of_child {node child expr : Expr} (hchild : child ∈ expr.children)
    (h : node ∈ child.nodes) : node ∈ expr.nodes := by
  rw [nodes_eq]
  exact List.mem_cons_of_mem expr (List.mem_flatMap.mpr ⟨child, hchild, h⟩)

/-- The nodes of a node are nodes of the whole. -/
theorem nodes_subset {node expr : Expr} (h : node ∈ expr.nodes) : node.nodes ⊆ expr.nodes := by
  induction expr using induction_children with
  | node expr ih =>
    rw [nodes_eq] at h
    rcases List.mem_cons.mp h with rfl | hbelow
    · exact List.Subset.refl _
    · obtain ⟨child, hchild, hnode⟩ := List.mem_flatMap.mp hbelow
      exact fun inner hinner => mem_nodes_of_child hchild (ih child hchild hnode hinner)

/-- What holds of the node and of all nodes below its children holds of all nodes. -/
theorem forall_nodes_of_children {p : Expr → Prop} {expr : Expr} (hroot : p expr)
    (hchildren : ∀ child ∈ expr.children, ∀ node ∈ child.nodes, p node) :
    ∀ node ∈ expr.nodes, p node := by
  intro node hnode
  rw [nodes_eq] at hnode
  rcases List.mem_cons.mp hnode with rfl | hbelow
  · exact hroot
  · obtain ⟨child, hchild, hnode⟩ := List.mem_flatMap.mp hbelow
    exact hchildren child hchild node hnode

/-! ## Checks of all nodes -/

section Free

variable (reads : Expr → Bool)

theorem freeArgs_eq_all (args : List Expr) : freeArgs reads args = args.all (free reads) := by
  induction args with
  | nil => rfl
  | cons arg rest ih => rw [freeArgs, List.all_cons, ih]

theorem freePairs_eq_all (branches : List (Expr × Expr)) :
    freePairs reads branches =
      (branches.flatMap (fun branch => [branch.1, branch.2])).all (free reads) := by
  induction branches with
  | nil => rfl
  | cons branch rest ih => simp [freePairs, ih, Bool.and_assoc]

theorem freeBranches_eq_all (branches : List (List Value × Expr)) :
    freeBranches reads branches = (branches.map (·.2)).all (free reads) := by
  induction branches with
  | nil => rfl
  | cons branch rest ih => rw [freeBranches, List.map_cons, List.all_cons, ih]

theorem freeStops_eq_all (stops : List (Float × Expr)) :
    freeStops reads stops = (stops.map (·.2)).all (free reads) := by
  induction stops with
  | nil => rfl
  | cons stop rest ih => rw [freeStops, List.map_cons, List.all_cons, ih]

/-- The check of an expression is the check of the node and of all its children. -/
theorem free_eq (expr : Expr) :
    free reads expr = (!reads expr && expr.children.all (free reads)) := by
  cases expr <;>
    simp [free, children, freeArgs_eq_all, freePairs_eq_all, freeBranches_eq_all, freeStops_eq_all,
      Bool.and_assoc]

/-- **An expression is free of readers exactly when no node of it is one.** -/
theorem free_iff (expr : Expr) :
    free reads expr = true ↔ ∀ node ∈ expr.nodes, reads node = false := by
  induction expr using induction_children with
  | node expr ih =>
    rw [free_eq, nodes_eq]
    simp only [Bool.and_eq_true, Bool.not_eq_true', List.all_eq_true, List.forall_mem_cons,
      List.mem_flatMap]
    -- the nodes below are the nodes of the children
    refine and_congr_right (fun _ => ⟨?_, ?_⟩)
    · rintro h node ⟨child, hchild, hnode⟩
      exact (ih child hchild).mp (h child hchild) node hnode
    · intro h child hchild
      exact (ih child hchild).mpr (fun node hnode => h node ⟨child, hchild, hnode⟩)

/-- What a check finds in no node of an expression it finds in no node of a child. -/
theorem free_child {expr child : Expr} (hchild : child ∈ expr.children)
    (h : free reads expr = true) : free reads child = true := by
  rw [free_eq, Bool.and_eq_true, List.all_eq_true] at h
  exact h.2 child hchild

end Free

end Symbology.Expr
