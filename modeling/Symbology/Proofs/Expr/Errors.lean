import Symbology.Proofs.Expr.Choice
import Symbology.Proofs.Typing.Derivation

set_option autoImplicit false

/-! # Where errors come from

An operator hands on the errors of its arguments and adds few of its own: `Raises` lists which node
raises which error. Every error of an expression is raised by one of its nodes (`exists_raises`). So
only a node `zoom` misses the zoom level, and only where there is none. -/

namespace Symbology

open Typing (OperandCount)

/-! ## Errors that nodes raise -/

/-- A node raises the error, and not because one of its arguments does. -/
inductive Expr.Raises (context : Context) : Expr → EvalError → Prop
  | typeMismatch {node : Expr} {expected actual : ValueType} :
      Raises context node (.typeMismatch expected actual)
  | missingZoom (missing : context.zoom = none) : Raises context .zoom .missingZoom
  | notColor {args : List Expr} {value : Value} :
      Raises context (.conversion .color args) (.notColor value)
  | notNumber {args : List Expr} {value : Value} :
      Raises context (.conversion .number args) (.notNumber value)
  | notComparable {order : Ordered} {left right : Expr} {l r : ValueType} :
      Raises context (.comparison (.ordered order) left right) (.notComparable l r)
  | operandCount {operation : Arithmetic} {args : List Expr}
      (wrong : ¬OperandCount operation args.length) :
      Raises context (.arithmetic operation args) (.operandCount operation args.length)
  | channelCount {args : List Expr} {channels : List Float} (length : channels.length = args.length)
      (wrong : ¬(args.length = 3 ∨ args.length = 4)) :
      Raises context (.rgba args) (.channelCount channels)
  | channelRange {args : List Expr} {r g b a : Float} :
      Raises context (.rgba args) (.channelRange r g b a)
  | alphaRange {args : List Expr} {r g b a : Float} :
      Raises context (.rgba args) (.alphaRange r g b a)
  | nanStep {input first : Expr} {stops : List (Float × Expr)} :
      Raises context (.step input first stops) (.nanInput .step)
  | nanInterpolate {interpolation : Interpolation} {input : Expr} {stops : List (Float × Expr)} :
      Raises context (.interpolate interpolation input stops) (.nanInput .interpolate)

/-! ## Errors of answers -/

/-- The answer has no errors other than those of a kind. -/
def ErrorsIn {α : Type} (P : EvalError → Prop) (answer : Except EvalError α) : Prop :=
  ∀ e, answer = .error e → P e

namespace ErrorsIn

variable {α β : Type} {P : EvalError → Prop}

theorem ok (a : α) : ErrorsIn P (.ok a) :=
  fun _ h => absurd h (by simp)

theorem error {e : EvalError} (h : P e) : ErrorsIn P (.error e : Except EvalError α) := by
  rintro _ ⟨⟩
  exact h

theorem bind {answer : Except EvalError α} {f : α → Except EvalError β} (h : ErrorsIn P answer)
    (hf : ∀ a, answer = .ok a → ErrorsIn P (f a)) : ErrorsIn P (answer.bind f) := by
  intro e he
  rcases Except.bind_eq_error_iff.mp he with hanswer | ⟨a, ha, hrest⟩
  · exact h e hanswer
  · exact hf a ha e hrest

theorem map {answer : Except EvalError α} {f : α → β} (h : ErrorsIn P answer) :
    ErrorsIn P (answer.map f) := by
  intro e he
  exact h e (Except.map_eq_error_iff.mp he)

theorem mapM {f : α → Except EvalError β} {as : List α} (h : ∀ a ∈ as, ErrorsIn P (f a)) :
    ErrorsIn P (as.mapM f) := by
  intro e he
  obtain ⟨a, ha, hfa⟩ := Except.mapM_eq_error he
  exact h a ha e hfa

end ErrorsIn

/-! ## Values -/

namespace Value

variable {P : EvalError → Prop}

/-- The color of channels is refused for their number or for one that is out of range. -/
theorem colorOfChannels_errorsIn {channels : List Float}
    (hcount : ¬(channels.length = 3 ∨ channels.length = 4) → P (.channelCount channels))
    (hchannel : ∀ r g b a, P (.channelRange r g b a))
    (halpha : ∀ r g b a, P (.alphaRange r g b a)) : ErrorsIn P (colorOfChannels channels) := by
  have hbuild : ∀ r g b a, ErrorsIn P (colorOfChannels.build r g b a) := by
    intro r g b a
    unfold colorOfChannels.build
    split
    · exact .error (hchannel r g b a)
    · split
      · exact .error (halpha r g b a)
      · exact .ok _
  unfold colorOfChannels
  split
  · exact hbuild _ _ _ _
  · exact hbuild _ _ _ _
  next hthree hfour =>
    refine .error (hcount ?_)
    rintro (hlength | hlength)
    · obtain ⟨r, g, b, rfl⟩ := List.length_eq_three.mp hlength
      exact hthree r g b rfl
    · obtain ⟨r, g, b, a, rfl⟩ := List.length_eq_four.mp hlength
      exact hfour r g b a rfl

mutual

theorem blend_errorsIn (hmismatch : ∀ expected actual, P (.typeMismatch expected actual))
    (t : Float) : ∀ a b : Value, ErrorsIn P (blend t a b)
  | .array as, b => by
    cases b with
    | array bs =>
      rw [blend]
      split
      · exact (blendItems_errorsIn hmismatch t as bs).map
      · exact .error (hmismatch ..)
    | _ => exact .error (hmismatch ..)
  | .number _, b | .color _, b => by
    cases b <;> first | exact .ok _ | exact .error (hmismatch ..)
  | .null, _ | .bool _, _ | .string _, _ | .object _, _ => .error (hmismatch ..)

theorem blendItems_errorsIn (hmismatch : ∀ expected actual, P (.typeMismatch expected actual))
    (t : Float) : ∀ as bs : List Value, ErrorsIn P (blendItems t as bs)
  | [], _ => .ok _
  | _ :: _, [] => .ok _
  | a :: as, b :: bs => by
    rw [blendItems]
    split
    next e he =>
      rintro _ ⟨⟩
      exact blend_errorsIn hmismatch t a b e he
    next => exact (blendItems_errorsIn hmismatch t as bs).map

end

end Value

/-- There are as many numbers as outcomes. -/
theorem Outcome.length_of_numbers {args : List Outcome} {xs : List Float}
    (h : numbers args = .ok xs) : xs.length = args.length :=
  (Except.mapM_eq_ok_iff.mp h).length_eq.symm

/-! ## Operators

Each lemma says that the errors of an operator are among those of its arguments, mismatches of types
and, where it has any, errors of its own. -/

section Operators

variable {P : EvalError → Prop} (hmismatch : ∀ expected actual, P (.typeMismatch expected actual))

include hmismatch

namespace Value

theorem needNumber_errorsIn (value : Value) : ErrorsIn P value.needNumber := by
  cases value with
  | number x => exact .ok x
  | _ => exact .error (hmismatch ..)

theorem needString_errorsIn (value : Value) : ErrorsIn P value.needString := by
  cases value with
  | string s => exact .ok s
  | _ => exact .error (hmismatch ..)

theorem needBool_errorsIn (value : Value) : ErrorsIn P value.needBool := by
  cases value with
  | bool b => exact .ok b
  | _ => exact .error (hmismatch ..)

end Value

namespace Outcome

variable {args : List Outcome}

theorem numbers_errorsIn (h : ∀ arg ∈ args, ErrorsIn P arg) : ErrorsIn P (numbers args) :=
  .mapM (fun arg harg => (h arg harg).bind (fun value _ => value.needNumber_errorsIn hmismatch))

/-- There are as many numbers as arguments. -/
theorem arithmetic_errorsIn {operation : Arithmetic}
    (hcount : ¬OperandCount operation args.length → P (.operandCount operation args.length))
    (h : ∀ arg ∈ args, ErrorsIn P arg) : ErrorsIn P (arithmetic operation args) := by
  refine (numbers_errorsIn hmismatch h).bind (fun xs hxs => ?_)
  rw [← length_of_numbers hxs] at hcount
  split
  case h_8 _ _ hadd hmultiply hopposite hdifference hquotient hremainder hpower =>
    refine .error (hcount ?_)
    cases operation with
    | add => exact absurd rfl hadd
    | multiply => exact absurd rfl hmultiply
    | subtract =>
      rintro (hone | htwo)
      · obtain ⟨x, rfl⟩ := List.length_eq_one_iff.mp hone
        exact hopposite x rfl rfl
      · obtain ⟨x, y, rfl⟩ := List.length_eq_two.mp htwo
        exact hdifference x y rfl rfl
    | divide =>
      intro htwo
      obtain ⟨x, y, rfl⟩ := List.length_eq_two.mp htwo
      exact hquotient x y rfl rfl
    | remainder =>
      intro htwo
      obtain ⟨x, y, rfl⟩ := List.length_eq_two.mp htwo
      exact hremainder x y rfl rfl
    | power =>
      intro htwo
      obtain ⟨x, y, rfl⟩ := List.length_eq_two.mp htwo
      exact hpower x y rfl rfl
  all_goals exact .ok _

theorem rgba_errorsIn
    (hcount : ∀ channels : List Float, channels.length = args.length →
      ¬(args.length = 3 ∨ args.length = 4) → P (.channelCount channels))
    (hchannel : ∀ r g b a, P (.channelRange r g b a)) (halpha : ∀ r g b a, P (.alphaRange r g b a))
    (h : ∀ arg ∈ args, ErrorsIn P arg) : ErrorsIn P (rgba args) := by
  refine (numbers_errorsIn hmismatch h).bind (fun channels hchannels => ?_)
  have hlength := length_of_numbers hchannels
  refine (Value.colorOfChannels_errorsIn (fun hwrong => hcount channels hlength ?_)
    hchannel halpha).map
  rwa [← hlength]

omit hmismatch in
theorem comparison_errorsIn {relation : Comparison} {left right : Outcome}
    (hincomparable : ∀ order, relation = .ordered order → ∀ l r, P (.notComparable l r))
    (hleft : ErrorsIn P left) (hright : ErrorsIn P right) :
    ErrorsIn P (comparison relation left right) := by
  refine hleft.bind (fun l _ => hright.bind (fun r _ => .map ?_))
  cases relation with
  | equal => exact .ok _
  | notEqual => exact .ok _
  | ordered order =>
    dsimp only [related]
    split
    · exact .ok _
    · exact .ok _
    · exact .error (hincomparable order rfl _ _)

theorem not_errorsIn {arg : Outcome} (h : ErrorsIn P arg) : ErrorsIn P (Outcome.not arg) :=
  (h.bind (fun value _ => value.needBool_errorsIn hmismatch)).map

theorem all_errorsIn (h : ∀ arg ∈ args, ErrorsIn P arg) : ErrorsIn P (all args) := by
  induction args with
  | nil => exact .ok _
  | cons arg rest ih =>
    obtain ⟨harg, hrest⟩ := List.forall_mem_cons.mp h
    refine (harg.bind (fun value _ => value.needBool_errorsIn hmismatch)).bind (fun b _ => ?_)
    split
    · exact ih hrest
    · exact .ok _

theorem any_errorsIn (h : ∀ arg ∈ args, ErrorsIn P arg) : ErrorsIn P (any args) := by
  induction args with
  | nil => exact .ok _
  | cons arg rest ih =>
    obtain ⟨harg, hrest⟩ := List.forall_mem_cons.mp h
    refine (harg.bind (fun value _ => value.needBool_errorsIn hmismatch)).bind (fun b _ => ?_)
    split
    · exact .ok _
    · exact ih hrest

theorem case_errorsIn {branches : List (Outcome × Outcome)} {otherwise : Outcome}
    (h : ∀ branch ∈ branches, ErrorsIn P branch.1 ∧ ErrorsIn P branch.2)
    (hotherwise : ErrorsIn P otherwise) : ErrorsIn P (case branches otherwise) := by
  induction branches with
  | nil => exact hotherwise
  | cons branch rest ih =>
    obtain ⟨hbranch, hrest⟩ := List.forall_mem_cons.mp h
    refine (hbranch.1.bind (fun value _ => value.needBool_errorsIn hmismatch)).bind (fun b _ => ?_)
    split
    · exact hbranch.2
    · exact ih hrest

omit hmismatch in
theorem select_errorsIn {input : Outcome} {branches : List (List Value × Outcome)}
    {otherwise : Outcome} (hinput : ErrorsIn P input)
    (h : ∀ branch ∈ branches, ErrorsIn P branch.2) (hotherwise : ErrorsIn P otherwise) :
    ErrorsIn P (select input branches otherwise) := by
  refine hinput.bind (fun value _ => ?_)
  split
  next branch hfound => exact h branch (List.mem_of_find?_eq_some hfound)
  next => exact hotherwise

omit hmismatch in
theorem coalesce_errorsIn (h : ∀ arg ∈ args, ErrorsIn P arg) : ErrorsIn P (coalesce args) := by
  induction args with
  | nil => exact .ok _
  | cons arg rest ih =>
    obtain ⟨harg, hrest⟩ := List.forall_mem_cons.mp h
    refine harg.bind (fun value _ => ?_)
    split
    · exact ih hrest
    · exact .ok _

theorem assertion_errorsIn {target last : ValueType} (h : ∀ arg ∈ args, ErrorsIn P arg) :
    ErrorsIn P (assertion target last args) := by
  induction args generalizing last with
  | nil => exact .error (hmismatch ..)
  | cons arg rest ih =>
    obtain ⟨harg, hrest⟩ := List.forall_mem_cons.mp h
    refine harg.bind (fun value _ => ?_)
    split
    · exact .ok _
    · exact ih hrest

omit hmismatch in
theorem firstConverted_errorsIn {convert? : Value → Option Value} {failure : Value → EvalError}
    (hfailure : ∀ value, P (failure value)) {last : Value} (h : ∀ arg ∈ args, ErrorsIn P arg) :
    ErrorsIn P (firstConverted convert? failure last args) := by
  induction args generalizing last with
  | nil => exact .error (hfailure last)
  | cons arg rest ih =>
    obtain ⟨harg, hrest⟩ := List.forall_mem_cons.mp h
    refine harg.bind (fun value _ => ?_)
    split
    · exact .ok _
    · exact ih hrest

omit hmismatch in
theorem first_errorsIn (h : ∀ arg ∈ args, ErrorsIn P arg) : ErrorsIn P (first args) := by
  cases args with
  | nil => exact .ok _
  | cons arg rest => exact h arg List.mem_cons_self

omit hmismatch in
theorem conversion_errorsIn {target : Conversion}
    (hcolor : target = .color → ∀ value, P (.notColor value))
    (hnumber : target = .number → ∀ value, P (.notNumber value))
    (h : ∀ arg ∈ args, ErrorsIn P arg) : ErrorsIn P (conversion target args) := by
  cases target with
  | number => exact firstConverted_errorsIn (hnumber rfl) h
  | color => exact firstConverted_errorsIn (hcolor rfl) h
  | string => exact (first_errorsIn h).map
  | boolean => exact (first_errorsIn h).map

theorem stopInput_errorsIn {operator : StopOperator} {input : Outcome}
    (hnan : P (.nanInput operator)) (h : ErrorsIn P input) :
    ErrorsIn P (stopInput operator input) := by
  refine (h.bind (fun value _ => value.needNumber_errorsIn hmismatch)).bind (fun x _ => ?_)
  split
  · exact .error hnan
  · exact .ok x

omit hmismatch in
theorem stopBelow_errorsIn {x : Float} {first : Outcome} {stops : List (Float × Outcome)}
    (hfirst : ErrorsIn P first) (h : ∀ stop ∈ stops, ErrorsIn P stop.2) :
    ErrorsIn P (stopBelow x first stops) := by
  induction stops generalizing first with
  | nil => exact hfirst
  | cons stop rest ih =>
    obtain ⟨hstop, hrest⟩ := List.forall_mem_cons.mp h
    rw [stopBelow]
    split
    · exact ih hstop hrest
    · exact hfirst

theorem step_errorsIn {input first : Outcome} {stops : List (Float × Outcome)}
    (hnan : P (.nanInput .step)) (hinput : ErrorsIn P input) (hfirst : ErrorsIn P first)
    (h : ∀ stop ∈ stops, ErrorsIn P stop.2) : ErrorsIn P (step input first stops) :=
  (stopInput_errorsIn hmismatch hnan hinput).bind (fun _ _ => stopBelow_errorsIn hfirst h)

theorem between_errorsIn {interpolation : Interpolation} {x lower : Float} {output : Outcome}
    {stops : List (Float × Outcome)} (houtput : ErrorsIn P output)
    (h : ∀ stop ∈ stops, ErrorsIn P stop.2) :
    ErrorsIn P (between interpolation x lower output stops) := by
  induction stops generalizing lower output with
  | nil => exact houtput
  | cons stop rest ih =>
    obtain ⟨hstop, hrest⟩ := List.forall_mem_cons.mp h
    rw [between]
    split
    · exact ih hstop hrest
    · exact houtput.bind (fun a _ => hstop.bind (fun b _ =>
        Value.blend_errorsIn hmismatch _ a b))

theorem interpolate_errorsIn {interpolation : Interpolation} {input : Outcome}
    {stops : List (Float × Outcome)} (hnan : P (.nanInput .interpolate))
    (hinput : ErrorsIn P input) (h : ∀ stop ∈ stops, ErrorsIn P stop.2) :
    ErrorsIn P (interpolate interpolation input stops) := by
  refine (stopInput_errorsIn hmismatch hnan hinput).bind (fun x _ => ?_)
  split
  · exact .ok _
  next label output rest =>
    obtain ⟨hstop, hrest⟩ := List.forall_mem_cons.mp h
    split
    · exact hstop
    · exact between_errorsIn hmismatch hstop hrest

end Outcome

end Operators

/-! ## Expressions -/

namespace Expr

variable {context : Context} {P : EvalError → Prop}

theorem length_evalArgs (context : Context) (args : List Expr) :
    (evalArgs context args).length = args.length := by
  rw [evalArgs_eq_map, List.length_map]

theorem evalArgs_errorsIn {args : List Expr} (h : ∀ arg ∈ args, ErrorsIn P (eval context arg)) :
    ∀ outcome ∈ evalArgs context args, ErrorsIn P outcome := by
  rw [evalArgs_eq_map]
  exact List.forall_mem_map.mpr h

theorem evalStops_errorsIn {stops : List (Float × Expr)}
    (h : ∀ stop ∈ stops, ErrorsIn P (eval context stop.2)) :
    ∀ stop ∈ evalStops context stops, ErrorsIn P stop.2 := by
  rw [evalStops_eq_map]
  exact List.forall_mem_map.mpr h

/-- **The errors of a node** are those that it raises and those of its children. -/
theorem eval_errorsIn {expr : Expr} (hraises : ∀ e, expr.Raises context e → P e)
    (h : ∀ child ∈ expr.children, ErrorsIn P (eval context child)) :
    ErrorsIn P (eval context expr) := by
  have hmismatch : ∀ expected actual, P (.typeMismatch expected actual) :=
    fun _ _ => hraises _ .typeMismatch
  cases expr with
  | literal | properties | id | geometryType => exact .ok _
  | zoom =>
    -- the one node that asks for the zoom level
    cases hzoom : context.zoom with
    | none =>
      simp only [eval, Context.zoomOutcome, hzoom]
      exact .error (hraises _ (.missingZoom hzoom))
    | some zoom =>
      simp only [eval, Context.zoomOutcome, hzoom]
      exact .ok _
  | get key =>
    exact ((h key List.mem_cons_self).bind (fun value _ => value.needString_errorsIn hmismatch)).map
  | has key =>
    exact ((h key List.mem_cons_self).bind (fun value _ => value.needString_errorsIn hmismatch)).map
  | not arg => exact Outcome.not_errorsIn hmismatch (h arg List.mem_cons_self)
  | comparison relation left right =>
    refine Outcome.comparison_errorsIn ?_ (h left List.mem_cons_self)
      (h right (List.mem_cons_of_mem left List.mem_cons_self))
    rintro order rfl l r
    exact hraises _ .notComparable
  | arithmetic operation args =>
    refine Outcome.arithmetic_errorsIn hmismatch ?_ (evalArgs_errorsIn h)
    rw [length_evalArgs]
    exact fun hwrong => hraises _ (.operandCount hwrong)
  | rgba args =>
    refine Outcome.rgba_errorsIn hmismatch ?_ (fun _ _ _ _ => hraises _ .channelRange)
      (fun _ _ _ _ => hraises _ .alphaRange) (evalArgs_errorsIn h)
    rw [length_evalArgs]
    exact fun _ hlength hwrong => hraises _ (.channelCount hlength hwrong)
  | all args => exact Outcome.all_errorsIn hmismatch (evalArgs_errorsIn h)
  | any args => exact Outcome.any_errorsIn hmismatch (evalArgs_errorsIn h)
  | coalesce args => exact Outcome.coalesce_errorsIn (evalArgs_errorsIn h)
  | assertion target args => exact Outcome.assertion_errorsIn hmismatch (evalArgs_errorsIn h)
  | conversion target args =>
    refine Outcome.conversion_errorsIn ?_ ?_ (evalArgs_errorsIn h)
    · rintro rfl value
      exact hraises _ .notColor
    · rintro rfl value
      exact hraises _ .notNumber
  | case branches otherwise =>
    simp only [children, List.forall_mem_append, List.forall_mem_flatMap, List.forall_mem_cons] at h
    rw [eval, evalPairs_eq_map]
    refine Outcome.case_errorsIn hmismatch (List.forall_mem_map.mpr ?_) h.2.1
    exact fun branch hbranch => ⟨(h.1 branch hbranch).1, (h.1 branch hbranch).2.1⟩
  | select input branches otherwise =>
    simp only [children, List.forall_mem_append, List.forall_mem_map, List.forall_mem_cons] at h
    rw [eval, evalBranches_eq_map]
    exact Outcome.select_errorsIn h.1 (List.forall_mem_map.mpr h.2.1) h.2.2.1
  | step input first stops =>
    simp only [children, List.forall_mem_map, List.forall_mem_cons] at h
    exact Outcome.step_errorsIn hmismatch (hraises _ .nanStep) h.1 h.2.1 (evalStops_errorsIn h.2.2)
  | interpolate interpolation input stops =>
    simp only [children, List.forall_mem_map, List.forall_mem_cons] at h
    exact Outcome.interpolate_errorsIn hmismatch (hraises _ .nanInterpolate) h.1
      (evalStops_errorsIn h.2)

/-- **Every error is raised by a node.** -/
theorem exists_raises {expr : Expr} {e : EvalError} (h : eval context expr = .error e) :
    ∃ node ∈ expr.nodes, node.Raises context e := by
  induction expr using induction_children with
  | node expr ih =>
    have herrors : ErrorsIn (fun e => expr.Raises context e ∨
        ∃ child ∈ expr.children, eval context child = .error e) (eval context expr) :=
      eval_errorsIn (fun e he => Or.inl he) (fun child hchild e he => Or.inr ⟨child, hchild, he⟩)
    rcases herrors e h with hraises | ⟨child, hchild, hfails⟩
    · exact ⟨expr, expr.self_mem_nodes, hraises⟩
    · obtain ⟨node, hnode, hraises⟩ := ih child hchild hfails
      exact ⟨node, mem_nodes_of_child hchild hnode, hraises⟩

/-! ## The zoom level -/

/-- **The zoom level is missed by a node `zoom`**, where there is none. -/
theorem zoom_mem_of_missing {expr : Expr} {e : EvalError} (h : eval context expr = .error e)
    (hkind : e.kind = .missingZoom) : .zoom ∈ expr.nodes ∧ context.zoom = none := by
  obtain ⟨node, hnode, hraises⟩ := exists_raises h
  cases hraises with
  | missingZoom hmissing => exact ⟨hnode, hmissing⟩
  | _ => contradiction

/-- **The zoom level is missing only where there is none.** -/
theorem zoom_eq_none_of_missing {expr : Expr} {e : EvalError} (h : eval context expr = .error e)
    (hkind : e.kind = .missingZoom) : context.zoom = none :=
  (zoom_mem_of_missing h hkind).2

/-- **Only an expression that reads the zoom level misses it.** -/
theorem not_isZoomConstant_of_missing {expr : Expr} {e : EvalError}
    (h : eval context expr = .error e) (hkind : e.kind = .missingZoom) :
    expr.isZoomConstant = false := by
  rw [← Bool.not_eq_true, isZoomConstant, free_iff]
  exact fun hfree => absurd (hfree _ (zoom_mem_of_missing h hkind).1) Bool.true_eq_false_eq_False

end Expr

end Symbology
