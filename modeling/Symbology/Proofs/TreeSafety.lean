import Symbology.Proofs.Expr.Curves
import Symbology.Proofs.Expr.Errors
import Symbology.Proofs.Typing.WellFormed

set_option autoImplicit false

/-! # Checked trees do not fail for their shape

Evaluating an expression relies on its nodes having as many arguments as their operators take, on
interpolations having stops, and on labels that ascend, so that the stops next to an input are where
a search looks for them. All this holds of every node of an expression that is checked, in every
context (`check_safe`). What is left of errors are those that come from values. -/

namespace Symbology.Expr

variable {expr : Expr} {context : Context}

/-- The labels of a well-formed node can be searched. -/
theorem WellFormed.searchesInBounds (h : expr.WellFormed) : expr.SearchesInBounds context := by
  cases expr with
  | step input first stops => exact searchesInBounds_step h.ascending
  | interpolate interpolation input stops =>
    obtain ⟨hne, hlabels⟩ := h
    refine searchesInBounds_interpolate hne (fun stop hstop => ?_) hlabels.ascending
    exact hlabels.comparable stop.1 (List.mem_map_of_mem hstop)
  | _ => trivial

/-- Where all nodes are well-formed, no operation finds the wrong number of operands. -/
theorem eval_ne_operandCount (h : ∀ node ∈ expr.nodes, node.WellFormed) (operation : Arithmetic)
    (count : Nat) : eval context expr ≠ .error (.operandCount operation count) := by
  intro heval
  obtain ⟨node, hnode, hraises⟩ := exists_raises heval
  have hformed := h node hnode
  cases hraises with
  | operandCount hwrong => exact hwrong hformed

/-- Where all nodes are well-formed, no color finds the wrong number of channels. -/
theorem eval_ne_channelCount (h : ∀ node ∈ expr.nodes, node.WellFormed) (channels : List Float) :
    eval context expr ≠ .error (.channelCount channels) := by
  intro heval
  obtain ⟨node, hnode, hraises⟩ := exists_raises heval
  have hformed := h node hnode
  cases hraises with
  | channelCount _ hwrong => exact hwrong hformed

/-- Evaluating the node does not fail for the shape of the tree. -/
structure SafeAt (context : Context) (node : Expr) : Prop where
  formed : node.WellFormed
  operandCount : ∀ operation count, eval context node ≠ .error (.operandCount operation count)
  channelCount : ∀ channels, eval context node ≠ .error (.channelCount channels)
  inBounds : node.SearchesInBounds context

/-- **Checked trees are well-formed, and safe to evaluate.** Whatever type is wanted, no node of an
expression that is checked fails for its shape, in any context. -/
theorem check_safe {json : Json} {expected : Option ValueType} {typed : Typed}
    (h : json.check expected = .ok typed) (context : Context) :
    ∀ node ∈ typed.expr.nodes, node.SafeAt context := by
  intro node hnode
  have hformed : ∀ inner ∈ node.nodes, inner.WellFormed :=
    fun inner hinner => Json.wellFormed_of_check h inner (nodes_subset hnode hinner)
  exact ⟨hformed node node.self_mem_nodes, eval_ne_operandCount hformed,
    eval_ne_channelCount hformed, (hformed node node.self_mem_nodes).searchesInBounds⟩

/-- A color that changes with the zoom level. -/
theorem check_safe_color :
    ∃ typed, Json.check (.array [.string "interpolate", .array [.string "linear"],
        .array [.string "zoom"],
        .number (.integer 0), .array [.string "rgb", .number (.integer 0),
          .array [.string "+", .number (.integer 1), .number (.integer 2)], .number (.integer 3)],
        .number (.integer 10), .string "red"]) (some .color) = .ok typed ∧
      ∀ node ∈ typed.expr.nodes, node.SafeAt ⟨some 5, none⟩ := by
  obtain ⟨typed, hcheck⟩ := Except.exists_of_isOk (x := Json.check (.array [.string "interpolate",
    .array [.string "linear"], .array [.string "zoom"],
    .number (.integer 0), .array [.string "rgb", .number (.integer 0),
      .array [.string "+", .number (.integer 1), .number (.integer 2)], .number (.integer 3)],
    .number (.integer 10), .string "red"]) (some .color)) (by decide)
  exact ⟨typed, hcheck, check_safe hcheck _⟩

end Symbology.Expr
