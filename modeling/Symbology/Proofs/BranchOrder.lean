import Mathlib.Data.List.Find
import Symbology.Proofs.Expr.Choice
import Symbology.Proofs.Related
import Symbology.Proofs.Typing.WellFormed
import Symbology.Proofs.Value.Equality

set_option autoImplicit false

/-! # The order of branches

A choice by labels takes the first branch with a label that equals the input. The checker makes sure
that no label equals one before it, also of another branch, and what equals one label equals no
other. So there is at most one such branch, and wherever it stands it is the one that is found: the
branches of a choice that is checked may stand in any order, and so may the labels of each of them
(`eval_reordered`). -/

namespace Symbology

open Typing

/-! ## Values among labels -/

/-- The value equals at most one of two labels that differ. -/
theorem Value.not_beq_of_beq {value a b : Value} (ha : (value == a) = true)
    (hdiffer : (b == a) = false) : (value == b) = false := by
  refine Bool.eq_false_of_not_eq_true (fun hb => ?_)
  have hequal : (b == a) = true := BEq.trans (BEq.symm hb) ha
  rw [hdiffer] at hequal
  contradiction

/-- Of branches with distinct labels, at most one has a label that equals the value. -/
theorem Typing.DistinctLabels.pairwise_contains {branches : List (List Value)}
    (h : DistinctLabels branches) (value : Value) :
    branches.Pairwise (fun a b => a.contains value = true → b.contains value = false) := by
  refine (List.pairwise_flatten.mp h.distinct).2.imp (fun {as bs} hdiffer hcontains => ?_)
  rw [List.contains_eq_any_beq, List.any_eq_true] at hcontains
  obtain ⟨a, ha, hequal⟩ := hcontains
  rw [List.contains_eq_any_beq, List.any_eq_false]
  intro b hb
  rw [Value.not_beq_of_beq hequal (hdiffer a ha b hb)]
  exact Bool.false_ne_true

namespace Expr

/-! ## Branches in another order -/

/-- The same branches in another order, each of them with its labels in another order. -/
def Reordered (branches reordered : List (List Value × Expr)) : Prop :=
  ∃ moved, branches.Perm moved ∧
    List.Forall₂ (fun a b => a.1.Perm b.1 ∧ a.2 = b.2) moved reordered

/-- The output of the first branch with a label that equals the value. -/
def listedOutput? (value : Value) (branches : List (List Value × Expr)) : Option Expr :=
  (branches.find? (fun branch => branch.1.contains value)).map (·.2)

variable {branches moved reordered : List (List Value × Expr)}

/-- Branches with distinct labels may be moved. -/
theorem listedOutput_of_perm (value : Value) (hdistinct : DistinctLabels (branches.map (·.1)))
    (h : branches.Perm moved) : listedOutput? value branches = listedOutput? value moved := by
  have hpairwise := List.pairwise_map.mp (hdistinct.pairwise_contains value)
  refine congrArg (Option.map (·.2)) (List.find?_eq_find?_of_perm h ?_)
  -- at most one branch is found
  rintro a ⟨ha, hcontains⟩ b ⟨hb, hcontains'⟩
  by_contra hne
  have hsymm : Std.Symm (fun a b : List Value × Expr =>
      a.1.contains value = true → b.1.contains value = false) :=
    ⟨fun a b h hb => Bool.eq_false_of_not_eq_true (fun ha => by simp [h ha] at hb)⟩
  have hother := hpairwise.forall ha hb hne hcontains
  rw [hcontains'] at hother
  contradiction

/-- The labels of each branch may be moved. -/
theorem listedOutput_of_labels (value : Value)
    (h : List.Forall₂ (fun a b => a.1.Perm b.1 ∧ a.2 = b.2) moved reordered) :
    listedOutput? value moved = listedOutput? value reordered := by
  have htests : List.Forall₂ (fun a b : List Value × Expr =>
      a.1.contains value = b.1.contains value ∧ a.2 = b.2) moved reordered :=
    h.imp (fun _ _ hab => ⟨hab.1.contains_eq, hab.2⟩)
  exact Option.rel_eq_iff.mp (Option.rel_map_iff.mpr htests.find?)

/-- **The order of branches does not matter** to a choice whose labels are distinct. -/
theorem eval_select_of_reordered (context : Context) (input otherwise : Expr)
    (hdistinct : DistinctLabels (branches.map (·.1))) (h : Reordered branches reordered) :
    eval context (.select input reordered otherwise) =
      eval context (.select input branches otherwise) := by
  obtain ⟨moved, hmoved, hlabels⟩ := h
  have houtput : ∀ value, listedOutput? value branches = listedOutput? value reordered :=
    fun value => (listedOutput_of_perm value hdistinct hmoved).trans
      (listedOutput_of_labels value hlabels)
  rw [eval_select, eval_select]
  refine congrArg _ (funext fun value => ?_)
  exact congrArg (fun output => eval context (output.getD otherwise)) (houtput value).symm

/-! ## Choices that are checked -/

/-- A choice by labels that is checked is a node of its own, with nothing around it. -/
theorem exists_select_of_check {args : List Json} {expected : Option ValueType} {typed : Typed}
    (h : (Json.array (.string "match" :: args)).check expected = .ok typed) :
    ∃ input branches otherwise, typed.expr = .select input branches otherwise := by
  obtain ⟨inferred, hinfer, hfit⟩ := Except.bind_eq_ok_iff.mp h
  have hrule : matchRule (Json.operands 1 args) expected = .ok inferred := hinfer
  unfold matchRule at hrule
  split at hrule
  · contradiction
  · split at hrule
    · contradiction
    · split at hrule
      · contradiction
      next hargs =>
        simp only [Except.seq_eq_ok_iff, Except.pure_eq_ok_iff] at hrule
        obtain ⟨input, _, ⟨branches, otherwise⟩, hbranches, rfl⟩ := hrule
        refine ⟨input, branches, otherwise.expr, ?_⟩
        cases expected with
        | none =>
          obtain rfl := Except.ok.inj hfit
          rfl
        | some type =>
          -- the outputs have the type that is wanted, so nothing is left to fit
          have hsound := hargs ▸ Json.operands_sound args
          obtain ⟨_, last, _, rfl, _⟩ :=
            selectBranches_derives (List.forall_mem_cons.mp hsound).2 hbranches
          have hfits : (⟨.select input branches last.expr, type⟩ : Typed).reconcile (some type) =
              .ok ⟨.select input branches last.expr, type⟩ := if_pos type.accepts_refl
          obtain rfl := Except.ok.inj (hfits.symm.trans hfit)
          rfl

/-- **The branches of a choice that is checked may stand in any order**, and so may the labels of
each branch: wherever the choice stands in an expression that is checked, its outcome stays the same
in every context. A choice by labels that is checked itself is such a node. -/
theorem eval_reordered {json : Json} {expected : Option ValueType} {typed : Typed}
    (h : json.check expected = .ok typed) :
    (∀ input branches otherwise, .select input branches otherwise ∈ typed.expr.nodes →
      ∀ reordered, Reordered branches reordered → ∀ context,
        eval context (.select input reordered otherwise) =
          eval context (.select input branches otherwise)) ∧
      ∀ args, json = .array (.string "match" :: args) →
        ∃ input branches otherwise, typed.expr = .select input branches otherwise := by
  refine ⟨fun input branches otherwise hnode reordered hreordered context => ?_, ?_⟩
  · have hformed : branches ≠ [] ∧ DistinctLabels (branches.map (·.1)) :=
      Json.wellFormed_of_check h _ hnode
    exact eval_select_of_reordered context input otherwise hformed.2 hreordered
  · rintro args rfl
    exact exists_select_of_check h

/-- Classes with a width each: the last branch first, and its labels the other way round. -/
theorem eval_reordered_class :
    ∃ typed input otherwise path street,
      Json.check (.array [.string "match", .array [.string "get", .string "class"],
        .string "path", .number (.integer 1),
        .array [.string "street", .number (.integer 7), .bool true], .array [.string "zoom"],
        .null]) (some .number) = .ok typed ∧
      typed.expr = .select input [([.string "path"], path),
        ([.string "street", .number (Json.Number.integer 7).toFloat, .bool true], street)]
        otherwise ∧
      ∀ context, eval context (.select input
          [([.bool true, .number (Json.Number.integer 7).toFloat, .string "street"], street),
            ([.string "path"], path)] otherwise) =
        eval context typed.expr := by
  let path : Expr := .literal (.number (Json.Number.integer 1).toFloat)
  let input : Expr := .get (.literal (.string "class"))
  have hcheck : Json.check (.array [.string "match", .array [.string "get", .string "class"],
      .string "path", .number (.integer 1),
      .array [.string "street", .number (.integer 7), .bool true], .array [.string "zoom"],
      .null]) (some .number) = .ok ⟨.select input [([.string "path"], path),
        ([.string "street", .number (Json.Number.integer 7).toFloat, .bool true], .zoom)]
        (.literal .null), .number⟩ := rfl
  refine ⟨_, input, .literal .null, path, .zoom, hcheck, rfl, fun context => ?_⟩
  refine (eval_reordered hcheck).1 _ _ _ (self_mem_nodes _) _ ⟨_, .swap _ _ [], ?_⟩ context
  exact .cons ⟨(List.reverse_perm _).symm, rfl⟩ (.cons ⟨.refl _, rfl⟩ .nil)

end Expr

end Symbology
