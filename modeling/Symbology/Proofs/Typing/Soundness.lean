import Symbology.Proofs.Expr.Choice
import Symbology.Proofs.Expr.Results
import Symbology.Proofs.Typing.Inference

set_option autoImplicit false

/-! # Soundness of types

An expression that is fitted to a type yields `null` or a value of the type, with one exception:
`coalesce` passes on the value of a `get` or `id` as it is, although it may be of any type. The
exception is `Unchecked`, and it is exact: an expression yields a value of another type just when
its value is unchecked (`Derives.wellTyped_iff`). Without `coalesce` there is no exception. -/

namespace Symbology

namespace Expr

/-! ## Values that nothing checks -/

/-- The node takes a value from the feature as it is. -/
def isLookup : Expr → Bool
  | .get _ | .id => true
  | _ => false

/-- The node is a `coalesce`. -/
def isCoalesce : Expr → Bool
  | .coalesce _ => true
  | _ => false

/-- The value of the expression is one that an argument of `coalesce` took from the feature. It is
not of the type, and it is only passed on. -/
inductive Unchecked (context : Context) (type : ValueType) : Expr → Prop
  | lookup {args : List Expr} {arg : Expr} {value : Value}
      (found : (coalesce args).passed? context = some arg) (looksUp : arg.isLookup = true)
      (yields : eval context arg = .ok value) (refused : type.accepts value.type = false) :
      Unchecked context type (.coalesce args)
  | passed {expr output : Expr} (chosen : expr.passed? context = some output)
      (unchecked : Unchecked context type output) : Unchecked context type expr

variable {context : Context} {type : ValueType} {expr : Expr} {value : Value}

theorem children_of_outputs {output : Expr} (h : output ∈ expr.outputs) :
    output ∈ expr.children := by
  cases expr with
  | case branches otherwise =>
    simp only [outputs, children, List.mem_append, List.mem_map, List.mem_flatMap] at h ⊢
    rcases h with ⟨branch, hbranch, houtput⟩ | hotherwise
    · exact Or.inl ⟨branch, hbranch, by simp [houtput]⟩
    · exact Or.inr hotherwise
  | select input branches otherwise => exact List.mem_cons_of_mem input h
  | coalesce args => exact h
  | step input first stops => exact List.mem_cons_of_mem input h
  | interpolate interpolation input stops => exact List.mem_cons_of_mem input h
  | _ => exact absurd h List.not_mem_nil

/-- Without `coalesce` every value is checked. -/
theorem not_unchecked_of_no_coalesce (h : ∀ node ∈ expr.nodes, node.isCoalesce = false) :
    ¬Unchecked context type expr := by
  intro hunchecked
  induction hunchecked with
  | lookup => exact absurd (h _ (self_mem_nodes _)) (by simp [isCoalesce])
  | passed hpassed _ ih =>
    refine ih (fun node hnode => h node ?_)
    exact mem_nodes_of_child (children_of_outputs (passed_mem hpassed)) hnode

/-- What `coalesce` finds is not `null`. -/
theorem ne_null_of_found {args : List Expr} {arg : Expr}
    (hpassed : (coalesce args).passed? context = some arg) (h : eval context arg = .ok value) :
    value ≠ .null := by
  rintro rfl
  have hfound := List.find?_some (show args.find? _ = some arg from hpassed)
  rw [h] at hfound
  contradiction

/-- **An unchecked value is refused by the type, and is not `null`.** -/
theorem Unchecked.refused (hunchecked : Unchecked context type expr)
    (h : eval context expr = .ok value) : value ≠ .null ∧ type.accepts value.type = false := by
  induction hunchecked generalizing value with
  | @lookup args arg found hfound hlookup hfoundValue hrefused =>
    obtain ⟨passed, hpassed, htype⟩ := type_of_passed hfound h
    obtain rfl := Except.ok.inj (hpassed.symm.trans hfoundValue)
    rw [← htype, ne_eq, ← Value.type_eq_null_iff, ← htype, Value.type_eq_null_iff]
    exact ⟨ne_null_of_found hfound hpassed, hrefused⟩
  | passed hpassed _ ih =>
    obtain ⟨passed, heval, htype⟩ := type_of_passed hpassed h
    rw [← htype, ne_eq, ← Value.type_eq_null_iff, ← htype, Value.type_eq_null_iff]
    exact ih heval

/-! ## Values that are as they should be -/

/-- The value is as it should be, or unchecked. -/
def WellTyped (context : Context) (type : ValueType) (expr : Expr) (value : Value) : Prop :=
  value = .null ∨ type.accepts value.type = true ∨ Unchecked context type expr

/-- What is passed on is as it should be if it was before. -/
theorem wellTyped_of_passed {output : Expr} (hpassed : expr.passed? context = some output)
    (heval : eval context expr = .ok value)
    (h : ∀ v, eval context output = .ok v → WellTyped context type output v) :
    WellTyped context type expr value := by
  obtain ⟨passed, houtput, htype⟩ := type_of_passed hpassed heval
  rcases h passed houtput with hnull | haccepts | hunchecked
  · exact Or.inl (Value.type_eq_null_iff.mp (htype ▸ Value.type_eq_null_iff.mpr hnull))
  · exact Or.inr (Or.inl (htype ▸ haccepts))
  · exact Or.inr (Or.inr (.passed hpassed hunchecked))

/-- An operator that chooses among outputs that are as they should be is so too. -/
theorem wellTyped_of_outputs (hchooses : expr.chooses = true)
    (heval : eval context expr = .ok value)
    (h : ∀ output ∈ expr.outputs, ∀ v, eval context output = .ok v →
      WellTyped context type output v) :
    WellTyped context type expr value := by
  cases hpassed : expr.passed? context with
  | none => exact Or.inl (null_of_not_passed hchooses hpassed heval)
  | some output => exact wellTyped_of_passed hpassed heval (h output (passed_mem hpassed))

end Expr

namespace Typing

open Symbology.Expr (WellTyped)

variable {context : Context} {type : ValueType} {typed : Typed} {value : Value}

/-! ## What a stage makes sure of -/

/-- What is known of a value before its expression is fitted to `type`. -/
structure Inferred (context : Context) (type : ValueType) (typed : Typed) (value : Value) :
    Prop where
  accepted : type.accepts typed.type = true → WellTyped context type typed.expr value
  null : typed.type = .null → value = .null
  lookup : typed.type = .value → typed.expr.isLookup = true

/-- What is known of a value after a stage. -/
def Stage.Assures (stage : Stage) (context : Context) (type : ValueType) (typed : Typed)
    (value : Value) : Prop :=
  match stage with
  | .inferred => Inferred context type typed value
  | .fitted => WellTyped context type typed.expr value

/-- A result of the type that is inferred, or `null`. -/
theorem Inferred.of_type (hdefinite : typed.type ≠ .value)
    (h : value = .null ∨ typed.type.accepts value.type = true) :
    Inferred context type typed value where
  accepted htype := h.imp_right (fun haccepts => Or.inl (ValueType.accepts_trans htype haccepts))
  null htype := by
    rcases h with hnull | haccepts
    · exact hnull
    · rw [htype, ValueType.accepts_iff_eq (by simp) (by simp)] at haccepts
      exact Value.type_eq_null_iff.mp haccepts.symm
  lookup htype := absurd htype hdefinite

/-- A result of just the type that is inferred. -/
theorem Inferred.of_exact (hdefinite : typed.type ≠ .value) (h : value.type = typed.type) :
    Inferred context type typed value :=
  .of_type hdefinite (Or.inr (h ▸ value.type.accepts_refl))

/-- A value that is taken from the feature as it is. -/
theorem Inferred.of_lookup (hvalue : type ≠ .value) (htype : typed.type = .value)
    (hlookup : typed.expr.isLookup = true) : Inferred context type typed value where
  accepted haccepts := absurd (ValueType.accepts_value_iff.mp (htype ▸ haccepts)) hvalue
  null hnull := by
    rw [htype] at hnull
    contradiction
  lookup _ := hlookup

/-- An output of the type that was wanted all along. -/
theorem Inferred.of_wellTyped (hvalue : type ≠ .value) (hnull : type ≠ .null)
    (htype : typed.type = type) (h : WellTyped context type typed.expr value) :
    Inferred context type typed value where
  accepted _ := h
  null htyped := absurd (htype.symm.trans htyped) hnull
  lookup htyped := absurd (htype.symm.trans htyped) hvalue

/-- A guard lets no value pass that is not of the type. -/
theorem wellTyped_of_guard {expr : Expr} (h : (Typed.guard type expr).eval context = .ok value) :
    WellTyped context type (Typed.guard type expr) value := by
  refine Or.inr (Or.inl ?_)
  unfold Typed.guard at h
  split at h
  · rw [Outcome.type_of_conversion h]
    rfl
  · exact Outcome.accepts_of_assertion h

/-- **Fitting turns what is inferred into what is wanted.** -/
theorem wellTyped_of_reconcile {fitted : Typed}
    (hinferred : ∀ v, typed.expr.eval context = .ok v → Inferred context type typed v)
    (hfits : typed.reconcile (some type) = .ok fitted)
    (heval : fitted.expr.eval context = .ok value) :
    WellTyped context type fitted.expr value := by
  simp only [Typed.reconcile] at hfits
  split at hfits
  next haccepts =>
    obtain rfl := Except.ok.inj hfits
    exact (hinferred value heval).accepted haccepts
  next =>
    split at hfits
    next hnull =>
      obtain rfl := Except.ok.inj hfits
      exact Or.inl ((hinferred value heval).null hnull)
    next =>
      split at hfits
      · obtain rfl := Except.ok.inj hfits
        exact wellTyped_of_guard heval
      · contradiction

/-- The arguments of `coalesce` that are fitted are as they should be; of the others, those of any
type are the ones that take a value from the feature. -/
theorem wellTyped_of_alternatives {args : List Alternative}
    (heval : (Expr.coalesce (args.map (fun arg => arg.typed.expr))).eval context = .ok value)
    (h : ∀ arg ∈ args,
      (arg.stage = .fitted → ∀ v, arg.typed.expr.eval context = .ok v →
        WellTyped context type arg.typed.expr v) ∧
      (arg.stage = .inferred → ∀ v, arg.typed.expr.eval context = .ok v →
        (arg.typed.type = .value ∨ arg.typed.type = .null) ∧
          Inferred context type arg.typed v)) :
    WellTyped context type (.coalesce (args.map (fun arg => arg.typed.expr))) value := by
  cases hpassed : (Expr.coalesce (args.map (fun arg => arg.typed.expr))).passed? context with
  | none => exact Or.inl (Expr.null_of_not_passed rfl hpassed heval)
  | some output =>
    obtain ⟨arg, harg, rfl⟩ := List.mem_map.mp (Expr.passed_mem hpassed)
    cases hstage : arg.stage with
    | fitted => exact Expr.wellTyped_of_passed hpassed heval ((h arg harg).1 hstage)
    | inferred =>
      obtain ⟨v, hv, htype⟩ := Expr.type_of_passed hpassed heval
      obtain ⟨hloose, hinferred⟩ := (h arg harg).2 hstage v hv
      rcases hloose with hany | hnull
      · cases haccepts : type.accepts v.type with
        | true => exact Or.inr (Or.inl (htype ▸ haccepts))
        | false =>
          exact Or.inr (Or.inr (.lookup hpassed (hinferred.lookup hany) hv haccepts))
      · exact absurd (hinferred.null hnull) (Expr.ne_null_of_found hpassed hv)

/-! ## Soundness -/

/-- What holds of the first output and of the outputs behind labels holds of all of them. -/
private theorem forall_outputs {α β : Type} {f : α → β} {P : Expr → Prop} {first : Typed}
    {rest : List (α × Typed)} (hfirst : P first.expr) (hrest : ∀ branch ∈ rest, P branch.2.expr) :
    ∀ output ∈ first.expr :: (rest.map (Prod.map f Typed.expr)).map (·.2), P output := by
  refine List.forall_mem_cons.mpr ⟨hfirst, ?_⟩
  rw [List.map_map]
  exact List.forall_mem_map.mpr hrest

/-- **Every rule is sound.** Where a definite type is wanted, every result of a derivation is as it
should be, or unchecked. -/
theorem Derives.assures (hvalue : type ≠ .value) (hnull : type ≠ .null) {stage : Stage}
    {expected : Option ValueType} (h : Derives stage expected typed)
    (hexpected : expected = some type) :
    ∀ v, typed.expr.eval context = .ok v → stage.Assures context type typed v := by
  induction h with
  | fit _ fits ih =>
    intro v heval
    subst hexpected
    exact wellTyped_of_reconcile (ih rfl) fits heval
  | @constant expected written value reads =>
    intro v heval
    obtain rfl := Except.ok.inj heval
    exact .of_type value.type_ne_value (Or.inr value.type.accepts_refl)
  -- what is taken from the feature is of any type, which fitting makes up for
  | get | id => exact fun v _ => .of_lookup hvalue rfl rfl
  -- what is computed is of the type that is inferred, whatever the arguments yield
  | has =>
    intro v heval
    obtain ⟨key, _, rfl⟩ := Except.map_eq_ok_iff.mp heval
    exact .of_type (by simp) (Or.inr rfl)
  | properties =>
    intro v heval
    obtain rfl := Except.ok.inj heval
    exact .of_type (by simp) (Or.inr rfl)
  | geometryType =>
    intro v heval
    obtain rfl := Except.ok.inj heval
    exact .of_type (by simp) (context.type_of_geometryValue.imp_right (fun h => by rw [h]; rfl))
  | zoom => exact fun v heval => .of_exact (by simp) (Context.type_of_zoomOutcome heval)
  | arithmetic => exact fun v heval => .of_exact (by simp) (Outcome.type_of_arithmetic heval)
  | equality | order =>
    exact fun v heval => .of_exact (by simp) (Outcome.type_of_comparison heval)
  | not => exact fun v heval => .of_exact (by simp) (Outcome.type_of_not heval)
  | all => exact fun v heval => .of_exact (by simp) (Outcome.type_of_all heval)
  | any => exact fun v heval => .of_exact (by simp) (Outcome.type_of_any heval)
  | assertion definite =>
    exact fun v heval => .of_type definite (Or.inr (Outcome.accepts_of_assertion heval))
  | @conversion expected target =>
    have hdefinite : target.type ≠ .value := by cases target <;> simp [Conversion.type]
    exact fun v heval => .of_exact hdefinite (Outcome.type_of_conversion heval)
  | rgba => exact fun v heval => .of_exact (by simp) (Outcome.type_of_rgba heval)
  -- what is chosen is one of the outputs, and each of them is fitted to the type
  | @case expected condition output otherwise rest _ _ _ _ _ _ ihOutput _ ihOutputs ihOtherwise =>
    intro v heval
    subst hexpected
    refine .of_wellTyped hvalue hnull rfl (Expr.wellTyped_of_outputs rfl heval ?_)
    refine List.forall_mem_append.mpr ⟨forall_outputs (ihOutput rfl) ?_, ?_⟩
    · exact fun branch hbranch => ihOutputs branch hbranch rfl
    · exact List.forall_mem_singleton.mpr (ihOtherwise rfl)
  | @select expected input output otherwise labels rest _ _ _ _ _ _ ihOutput ihOutputs
      ihOtherwise =>
    intro v heval
    subst hexpected
    refine .of_wellTyped hvalue hnull rfl (Expr.wellTyped_of_outputs rfl heval ?_)
    refine List.forall_mem_append.mpr ⟨forall_outputs (ihOutput rfl) ?_, ?_⟩
    · exact fun branch hbranch => ihOutputs branch hbranch rfl
    · exact List.forall_mem_singleton.mpr (ihOtherwise rfl)
  | @coalesce expected shared args _ sharedType wanted loose _ ih =>
    intro v heval
    subst hexpected
    obtain rfl : type = shared := sharedType
    refine .of_wellTyped hvalue hnull rfl ?_
    refine wellTyped_of_alternatives heval (fun arg harg => ?_)
    have hwanted : arg.wanted = some type := or_self_iff.mp (wanted arg harg)
    refine ⟨fun hstage w hw => ?_, fun hstage w hw => ⟨loose arg harg hstage, ?_⟩⟩
    · have hassured := ih arg harg hwanted w hw
      rw [hstage] at hassured
      exact hassured
    · have hassured := ih arg harg hwanted w hw
      rw [hstage] at hassured
      exact hassured
  | @step expected input first stops _ _ _ _ _ ihFirst ihOutputs =>
    intro v heval
    subst hexpected
    refine .of_wellTyped hvalue hnull rfl (Expr.wellTyped_of_outputs rfl heval ?_)
    exact forall_outputs (ihFirst rfl) (fun stop hstop => ihOutputs stop hstop rfl)
  | @interpolate expected interpolation input first label rest _ _ _ _ _ _ ihFirst ihOutputs =>
    intro v heval
    subst hexpected
    refine .of_wellTyped hvalue hnull rfl (Expr.wellTyped_of_outputs rfl heval ?_)
    exact forall_outputs (ihFirst rfl) (fun stop hstop => ihOutputs stop hstop rfl)

/-- **Soundness of types, exactly.** Where a definite type is wanted, the result of a fitted
expression is `null` or of the type unless it is unchecked, and then it is neither. -/
theorem Derives.wellTyped_iff (hvalue : type ≠ .value) (hnull : type ≠ .null)
    (h : Derives .fitted (some type) typed) (heval : typed.expr.eval context = .ok value) :
    (value = .null ∨ type.accepts value.type = true) ↔ ¬typed.expr.Unchecked context type := by
  constructor
  · intro hwell hunchecked
    obtain ⟨hne, hrefused⟩ := hunchecked.refused heval
    rw [hrefused] at hwell
    exact hwell.elim hne Bool.false_ne_true
  · intro hchecked
    rcases h.assures hvalue hnull rfl value heval with hnull | haccepts | hunchecked
    · exact Or.inl hnull
    · exact Or.inr haccepts
    · exact absurd hunchecked hchecked

end Typing

end Symbology
