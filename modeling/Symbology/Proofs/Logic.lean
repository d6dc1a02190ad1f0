import Symbology.Proofs.Expr.Choice

set_option autoImplicit false

/-! # Laws of logic and of choice

`all` and `any` look at their arguments from left to right and stop at the one that decides. They
are dual to each other, errors included: where all arguments are negated, the same argument decides
(`eval_not_all_any`). A choice by labels evaluates its input once, before it looks at the branches;
a choice by conditions that compare the input with each label evaluates it again for each of them.
The outcomes are the same (`eval_select_eq_case`). -/

namespace Symbology

/-! ## Negation -/

namespace Outcome

/-- A negation is a truth value, or fails to be one, just as what is negated. -/
theorem needBool_not (arg : Outcome) :
    (Outcome.not arg).bind Value.needBool = (arg.bind Value.needBool).map (!·) := by
  unfold Outcome.not
  cases arg.bind Value.needBool <;> rfl

/-- The negation of "all" stops at the first argument whose negation is true, or that fails. -/
theorem not_all (args : List Outcome) :
    Outcome.not (Outcome.all args) = Outcome.any (args.map Outcome.not) := by
  induction args with
  | nil => rfl
  | cons arg rest ih =>
    rw [List.map_cons, Outcome.all, Outcome.any, needBool_not]
    cases arg.bind Value.needBool with
    | error e => rfl
    | ok b =>
      cases b with
      | true => exact ih
      | false => rfl

/-- The negation of "any" stops at the first argument whose negation is false, or that fails. -/
theorem not_any (args : List Outcome) :
    Outcome.not (Outcome.any args) = Outcome.all (args.map Outcome.not) := by
  induction args with
  | nil => rfl
  | cons arg rest ih =>
    rw [List.map_cons, Outcome.all, Outcome.any, needBool_not]
    cases arg.bind Value.needBool with
    | error e => rfl
    | ok b =>
      cases b with
      | true => rfl
      | false => exact ih

end Outcome

namespace Expr

variable {context : Context}

theorem evalArgs_map_not (args : List Expr) :
    evalArgs context (args.map .not) = (evalArgs context args).map Outcome.not := by
  simp only [evalArgs_eq_map, List.map_map]
  exact List.map_congr_left (fun arg _ => by rw [Function.comp_apply, Function.comp_apply, eval])

/-- **De Morgan's laws**, with the errors of the arguments. -/
theorem eval_not_all_any (context : Context) (args : List Expr) :
    eval context (.not (.all args)) = eval context (.any (args.map .not)) ∧
      eval context (.not (.any args)) = eval context (.all (args.map .not)) := by
  simp only [eval, evalArgs_map_not]
  exact ⟨Outcome.not_all _, Outcome.not_any _⟩

/-! ## Choices as conditions -/

/-- The condition that an input equals one of some labels. -/
def equalsAny (input : Expr) (labels : List Value) : Expr :=
  .any (labels.map (fun label => .comparison .equal input (.literal label)))

/-- The outcome of comparing an outcome with some labels in turn. -/
theorem eval_equalsAny (input : Expr) (labels : List Value) :
    eval context (equalsAny input labels) =
      Outcome.any (labels.map (fun label =>
        Outcome.comparison .equal (eval context input) (.ok label))) := by
  rw [equalsAny, eval, evalArgs_eq_map, List.map_map]
  refine congrArg Outcome.any (List.map_congr_left (fun label _ => ?_))
  rw [Function.comp_apply, eval, eval]

/-- The condition tells whether the value of the input is among the labels. -/
theorem eval_equalsAny_of_ok {input : Expr} {value : Value} (h : eval context input = .ok value)
    (labels : List Value) :
    eval context (equalsAny input labels) = .ok (.bool (labels.contains value)) := by
  rw [eval_equalsAny, h]
  induction labels with
  | nil => rfl
  | cons label rest ih =>
    have hcompare : Outcome.comparison .equal (.ok value) (.ok label) =
        .ok (.bool (value == label)) := rfl
    rw [List.map_cons, hcompare, List.contains_cons, Outcome.any, ih]
    cases value == label <;> rfl

/-- An input that fails makes the first comparison fail, if there is one. -/
theorem eval_equalsAny_of_error {input : Expr} {e : EvalError} (h : eval context input = .error e)
    {labels : List Value} (hne : labels ≠ []) :
    eval context (equalsAny input labels) = .error e := by
  obtain ⟨label, rest, rfl⟩ := List.exists_cons_of_ne_nil hne
  rw [eval_equalsAny, h]
  rfl

/-- Where the input has a value, the first condition that is true is that of the first branch with
a label that equals the value. -/
theorem eval_case_equalsAny {input : Expr} {value : Value} (h : eval context input = .ok value)
    (branches : List (List Value × Expr)) (otherwise : Expr) :
    eval context (.case (branches.map (fun branch => (equalsAny input branch.1, branch.2)))
        otherwise) =
      eval context (((branches.find? (fun branch => branch.1.contains value)).map
        (·.2)).getD otherwise) := by
  rw [eval]
  induction branches with
  | nil => rfl
  | cons branch rest ih =>
    rw [List.map_cons, evalPairs, Outcome.case, eval_equalsAny_of_ok h, ih, List.find?_cons]
    cases branch.1.contains value <;> rfl

/-- **A choice by labels is a choice by conditions** that compare the input with the labels: the
same output is chosen, and it is the same error if the input fails. There has to be something that
the input is compared with, for otherwise the conditions do not evaluate it. -/
theorem eval_select_eq_case (context : Context) (input : Expr)
    (branches : List (List Value × Expr)) (otherwise : Expr) (hbranches : branches ≠ [])
    (hlabels : ∀ branch ∈ branches, branch.1 ≠ []) :
    eval context (.select input branches otherwise) =
      eval context (.case (branches.map (fun branch => (equalsAny input branch.1, branch.2)))
        otherwise) := by
  rw [eval_select]
  cases hinput : eval context input with
  | ok value => exact (eval_case_equalsAny hinput branches otherwise).symm
  | error e =>
    -- the first condition fails as well, so no branch is chosen
    obtain ⟨branch, rest, rfl⟩ := List.exists_cons_of_ne_nil hbranches
    have hfirst := eval_equalsAny_of_error hinput (hlabels branch List.mem_cons_self)
    rw [List.map_cons, eval, evalPairs, Outcome.case, hfirst]
    rfl

/-- Of two branches with the label the first one counts; the other outputs would fail. -/
theorem eval_select_eq_case_class :
    eval ⟨none, some { properties := [("class", .string "b")] }⟩
        (.case
          [(equalsAny (.get (.literal (.string "class"))) [.string "a", .string "b"],
              .literal (.number 1)),
            (equalsAny (.get (.literal (.string "class"))) [.string "b", .string "c"], .zoom)]
          .zoom) = .ok (.number 1) :=
  (eval_select_eq_case _ _ [([.string "a", .string "b"], .literal (.number 1)),
    ([.string "b", .string "c"], .zoom)] .zoom (List.cons_ne_nil _ _) (by simp)).symm.trans rfl

end Expr

end Symbology
