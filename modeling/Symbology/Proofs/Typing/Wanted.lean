import Symbology.Proofs.Members
import Symbology.Proofs.Typing.Rules
import Symbology.Typing.Infer

set_option autoImplicit false

/-! # What the type that is wanted changes

An expression may be checked where no type is wanted, and then has a type of its own, or where one
is wanted, and then passes or does not. For most operators the two agree: they are inferred alike in
both cases, and fitted afterwards (`Uniform`). Operators that choose hand the wanted type on to
their outputs and else take that of the first output (`Shares`); `coalesce` hands it on to arguments
that it leaves unchecked otherwise. So an expression may have a type of its own and still not pass
where this type is wanted, and it may pass and have none. What holds of all expressions, if a number
or a string is wanted, is `Adapts`: one with another type of its own does not pass, unless it is
`null` or of any type, and whatever is `null`, or passes where `null` is wanted, does
(`Json.infer_adapts`). -/

namespace Symbology

/-! ## Types with an order -/

/-- The values of the type have an order. -/
def ValueType.isOrdered : ValueType → Bool
  | .number | .string => true
  | _ => false

theorem ValueType.accepts_iff_of_isOrdered {type actual : ValueType} (h : type.isOrdered = true) :
    type.accepts actual = true ↔ type = actual := by
  cases type with
  | number | string => exact accepts_iff_eq (by simp) (by simp)
  | _ => contradiction

theorem ValueType.ne_color_of_isOrdered {type : ValueType} (h : type.isOrdered = true) :
    type ≠ .color := by
  rintro rfl
  contradiction

open Typing

/-! ## Fitting -/

/-- What can be fitted to a type. -/
theorem Typed.exists_reconcile_iff {type : ValueType} {typed : Typed} :
    (∃ fitted, typed.reconcile (some type) = .ok fitted) ↔
      type.accepts typed.type = true ∨ typed.type = .null ∨ typed.type = .value := by
  simp only [reconcile]
  split_ifs with haccepts hnull hvalue
  · simp [haccepts]
  · simp [hnull]
  · simp [hvalue]
  · simp [haccepts, hnull, hvalue]

/-- The argument passes the check where the type is wanted. -/
def Operand.Passes (o : Operand) (type : ValueType) : Prop :=
  ∃ typed, o.check (some type) = .ok typed

namespace Typing

/-- The expression passes where the type is wanted. -/
def Fits (answer : Option ValueType → Checked Typed) (type : ValueType) : Prop :=
  ∃ typed, (answer (some type)).bind (Typed.reconcile (some type)) = .ok typed

variable {answer : Option ValueType → Checked Typed} {type : ValueType}

theorem fits_iff :
    Fits answer type ↔ ∃ typed, answer (some type) = .ok typed ∧
      (type.accepts typed.type = true ∨ typed.type = .null ∨ typed.type = .value) := by
  simp only [Fits, Except.bind_eq_ok_iff, ← Typed.exists_reconcile_iff]
  constructor
  · rintro ⟨fitted, typed, htyped, hfitted⟩
    exact ⟨typed, htyped, fitted, hfitted⟩
  · rintro ⟨typed, htyped, fitted, hfitted⟩
    exact ⟨fitted, typed, htyped, hfitted⟩

theorem fits_iff_passes {o : Operand} : Fits o.infer type ↔ o.Passes type := by
  simp only [Fits, Operand.Passes, Operand.check, Operand.located_eq_ok_iff]

/-- **How an expression adapts** to a number or a string that is wanted. -/
structure Adapts (answer : Option ValueType → Checked Typed) : Prop where
  own {typed : Typed} {type : ValueType} (hown : answer none = .ok typed)
    (hordered : type.isOrdered = true) (hfits : Fits answer type) :
    typed.type = .value ∨ typed.type = .null ∨ typed.type = type
  null {typed : Typed} {type : ValueType} (hown : answer none = .ok typed)
    (hnull : typed.type = .null) (hordered : type.isOrdered = true) : Fits answer type
  wantedNull {type : ValueType} (hordered : type.isOrdered = true) (hfits : Fits answer .null) :
    Fits answer type

/-- An argument that passes as `null` passes as a number and as a string. -/
theorem Adapts.passes {o : Operand} (h : Adapts o.infer) (hordered : type.isOrdered = true)
    (hnull : o.Passes .null) : o.Passes type :=
  fits_iff_passes.mp (h.wantedNull hordered (fits_iff_passes.mpr hnull))

/-! ## Operators that are inferred alike -/

/-- The type that is wanted makes no difference before fitting, unless it is a color. -/
def Uniform (answer : Option ValueType → Checked Typed) : Prop :=
  ∀ type, type ≠ .color → answer (some type) = answer none

theorem Uniform.adapts (h : Uniform answer) : Adapts answer where
  own hown hordered hfits := by
    rw [fits_iff, h _ (ValueType.ne_color_of_isOrdered hordered), hown] at hfits
    obtain ⟨typed, hsame, htype⟩ := hfits
    obtain rfl := Except.ok.inj hsame
    rcases htype with haccepts | hnull | hvalue
    · rw [ValueType.accepts_iff_of_isOrdered hordered] at haccepts
      exact Or.inr (Or.inr haccepts.symm)
    · exact Or.inr (Or.inl hnull)
    · exact Or.inl hvalue
  null hown hnull hordered := by
    rw [fits_iff, h _ (ValueType.ne_color_of_isOrdered hordered)]
    exact ⟨_, hown, Or.inr (Or.inl hnull)⟩
  wantedNull hordered hfits := by
    rw [fits_iff, h .null (by simp)] at hfits
    obtain ⟨typed, htyped, htype⟩ := hfits
    rw [fits_iff, h _ (ValueType.ne_color_of_isOrdered hordered)]
    refine ⟨typed, htyped, Or.inr ?_⟩
    rcases htype with haccepts | hnull | hvalue
    · exact Or.inl ((ValueType.accepts_iff_eq (by simp) (by simp)).mp haccepts).symm
    · exact Or.inl hnull
    · exact Or.inr hvalue

/-- Text is text, unless a color is wanted. -/
theorem constant_uniform (value : Value) :
    Uniform (fun expected => Typed.constant expected value) := by
  intro type hcolor
  cases type with
  | color => exact absurd rfl hcolor
  | _ => rfl

/-! ## Operators whose outputs share a type -/

/-- The outputs share a type: the one that is wanted, or else that of the first output. All else has
to pass with this type. -/
structure Shares (answer : Option ValueType → Checked Typed) (first : Operand)
    (others : ValueType → Prop) : Prop where
  answer_iff : ∀ expected type, (∃ typed, answer expected = .ok typed ∧ typed.type = type) ↔
    (∃ output, first.check expected = .ok output ∧ expected.getD output.type = type) ∧ others type
  others_of_null : ∀ type, type.isOrdered = true → others .null → others type

section Shares

variable {first : Operand} {others : ValueType → Prop}

theorem Shares.fits_iff (h : Shares answer first others) :
    Fits answer type ↔ Fits first.infer type ∧ others type := by
  have hanswer := h.answer_iff (some type)
  rw [Typing.fits_iff, fits_iff_passes]
  constructor
  · rintro ⟨typed, htyped, _⟩
    obtain ⟨⟨output, houtput, hshared⟩, hothers⟩ := (hanswer typed.type).mp ⟨typed, htyped, rfl⟩
    rw [← hshared] at hothers
    exact ⟨⟨output, houtput⟩, hothers⟩
  · rintro ⟨⟨output, houtput⟩, hothers⟩
    obtain ⟨typed, htyped, hshared⟩ := (hanswer type).mpr ⟨⟨output, houtput, rfl⟩, hothers⟩
    exact ⟨typed, htyped, Or.inl (hshared ▸ typed.type.accepts_refl)⟩

/-- Where no type is wanted, the first output has one of its own. -/
theorem Shares.own (h : Shares answer first others) {typed : Typed}
    (hown : answer none = .ok typed) :
    ∃ output, first.infer none = .ok output ∧ output.type = typed.type ∧ others typed.type := by
  obtain ⟨⟨output, houtput, hshared⟩, hothers⟩ := (h.answer_iff none _).mp ⟨typed, hown, rfl⟩
  rw [Operand.check, Operand.located_eq_ok_iff, Except.bind_eq_ok_iff] at houtput
  obtain ⟨inferred, hinferred, hfit⟩ := houtput
  obtain rfl := Except.ok.inj hfit
  exact ⟨inferred, hinferred, hshared, hothers⟩

/-- The operator adapts as its first output does. -/
theorem Shares.adapts (h : Shares answer first others) (hfirst : Adapts first.infer) :
    Adapts answer where
  own hown hordered hfits := by
    obtain ⟨output, houtput, htype, _⟩ := h.own hown
    rw [← htype]
    exact hfirst.own houtput hordered (h.fits_iff.mp hfits).1
  null hown hnull hordered := by
    obtain ⟨output, houtput, htype, hothers⟩ := h.own hown
    rw [hnull] at htype hothers
    exact h.fits_iff.mpr
      ⟨hfirst.null houtput htype hordered, h.others_of_null _ hordered hothers⟩
  wantedNull hordered hfits := by
    obtain ⟨houtput, hothers⟩ := h.fits_iff.mp hfits
    exact h.fits_iff.mpr
      ⟨hfirst.wantedNull hordered houtput, h.others_of_null _ hordered hothers⟩

end Shares

/-! ## Operators -/

/-- The operator adapts if its arguments do. -/
def Rule.Adapts (rule : Rule) : Prop :=
  ∀ args : List Operand, (∀ o ∈ args, Typing.Adapts o.infer) → Typing.Adapts (rule args)

/-- The operator is inferred alike, whatever type is wanted. -/
def Rule.Uniform (rule : Rule) : Prop :=
  ∀ args : List Operand, Typing.Uniform (rule args)

theorem Rule.Uniform.adapts {rule : Rule} (h : Rule.Uniform rule) : Rule.Adapts rule :=
  fun args _ => (h args).adapts

/-- The rule never asks which type is wanted. -/
theorem Rule.Adapts.of_ignoring (rule : List Operand → Checked Typed) :
    Rule.Adapts (fun args _ => rule args) :=
  Rule.Uniform.adapts (fun _ _ _ => rfl)

theorem literalRule_uniform : Rule.Uniform literalRule
  | [arg] => constant_uniform (.ofJson arg.json)
  | [] | _ :: _ :: _ => fun _ _ => rfl

theorem unaryRule_uniform (argument type : ValueType) (build : Expr → Expr) :
    Rule.Uniform (unaryRule argument build type)
  | [_] | [] | _ :: _ :: _ => fun _ _ => rfl

theorem equalityRule_uniform (relation : Comparison) : Rule.Uniform (equalityRule relation)
  | [_, _] | [] | [_] | _ :: _ :: _ :: _ => fun _ _ => rfl

theorem orderRule_uniform (order : Ordered) : Rule.Uniform (orderRule order)
  | [_, _] | [] | [_] | _ :: _ :: _ :: _ => fun _ _ => rfl

theorem arrayRule_uniform : Rule.Uniform arrayRule
  | [_] | [_, _] | [_, _, _] | [] | _ :: _ :: _ :: _ :: _ => fun _ _ => rfl

/-! ## Choice by conditions -/

section Outputs

variable {wanted wanted' : ValueType}

theorem caseBranches_type :
    ∀ {args : List Operand} {branches : List (Expr × Expr)} {otherwise : Typed},
      caseBranches (some type) args = .ok (branches, otherwise) → otherwise.type = type
  | [], _, _, h => by contradiction
  | [last], _, _, h => by
    simp only [caseBranches, Except.seq_eq_ok_iff, Except.pure_eq_ok_iff] at h
    obtain ⟨_, _, h⟩ := h
    obtain ⟨_, rfl⟩ := Prod.mk.inj h
    rfl
  | _ :: _ :: args, _, _, h => by
    simp only [caseBranches, Except.seq_eq_ok_iff, Except.pure_eq_ok_iff] at h
    obtain ⟨_, _, _, _, ⟨_, otherwise⟩, hrest, h⟩ := h
    obtain ⟨_, rfl⟩ := Prod.mk.inj h
    exact caseBranches_type hrest

/-- Where all outputs pass with one type, and whatever does passes with another one, the outputs
pass with the other one. -/
theorem exists_caseBranches_of_passes :
    ∀ {args : List Operand}, (∀ o ∈ args, o.Passes wanted → o.Passes wanted') →
      (∃ found, caseBranches (some wanted) args = .ok found) →
        ∃ found, caseBranches (some wanted') args = .ok found
  | [], _, ⟨_, h⟩ => by contradiction
  | [last], hpasses, ⟨_, h⟩ => by
    simp only [caseBranches, Except.seq_eq_ok_iff, Except.pure_eq_ok_iff] at h ⊢
    obtain ⟨typed, hlast, _⟩ := h
    obtain ⟨typed', hlast'⟩ := hpasses last (List.mem_singleton_self last) ⟨typed, hlast⟩
    exact ⟨_, typed', hlast', rfl⟩
  | condition :: result :: args, hpasses, ⟨_, h⟩ => by
    obtain ⟨_, hpasses⟩ := List.forall_mem_cons.mp hpasses
    obtain ⟨hresult, hpasses⟩ := List.forall_mem_cons.mp hpasses
    simp only [caseBranches, Except.seq_eq_ok_iff, Except.pure_eq_ok_iff] at h ⊢
    obtain ⟨test, htest, typed, houtput, found, hrest, _⟩ := h
    obtain ⟨typed', houtput'⟩ := hresult ⟨typed, houtput⟩
    obtain ⟨found', hrest'⟩ := exists_caseBranches_of_passes hpasses ⟨found, hrest⟩
    exact ⟨_, test, htest, typed', houtput', found', hrest', rfl⟩

theorem caseRule_shares {condition result : Operand} {rest : List Operand}
    (hrest : ∀ o ∈ rest, Typing.Adapts o.infer) (hodd : rest.length % 2 = 1) :
    Shares (caseRule (condition :: result :: rest)) result (fun type =>
      (∃ test, condition.checkExpr (some .boolean) = .ok test) ∧
        ∃ found, caseBranches (some type) rest = .ok found) where
  answer_iff expected type := by
    have hcount : ¬(condition :: result :: rest).length < 3 := by simp; omega
    have hparity : ¬(condition :: result :: rest).length % 2 = 0 := by simp; omega
    simp only [caseRule, if_neg hcount, if_neg hparity, caseBranches, Except.seq_eq_ok_iff,
      Except.pure_eq_ok_iff]
    constructor
    · rintro ⟨_, ⟨⟨_, otherwise⟩, ⟨test, htest, output, houtput, ⟨branches, otherwise'⟩, hfound,
        heq⟩, rfl⟩, rfl⟩
      obtain ⟨_, rfl⟩ := Prod.mk.inj heq
      -- the first output settles the type that all others are fitted to
      have htype : otherwise'.type = expected.getD output.type := caseBranches_type hfound
      exact ⟨⟨output, houtput, htype.symm⟩, ⟨test, htest⟩, _, htype ▸ hfound⟩
    · rintro ⟨⟨output, houtput, rfl⟩, ⟨test, htest⟩, ⟨branches, otherwise⟩, hfound⟩
      have htype : otherwise.type = expected.getD output.type := caseBranches_type hfound
      exact ⟨_, ⟨_, ⟨test, htest, output, houtput, _, hfound, rfl⟩, rfl⟩, htype⟩
  others_of_null type hordered := by
    rintro ⟨htest, hfound⟩
    exact ⟨htest, exists_caseBranches_of_passes
      (fun o ho => (hrest o ho).passes hordered) hfound⟩

theorem caseRule_adapts : Rule.Adapts caseRule := by
  intro args hargs
  by_cases hcount : 3 ≤ args.length ∧ args.length % 2 = 1
  · obtain ⟨hleast, hodd⟩ := hcount
    rcases args with _ | ⟨condition, _ | ⟨result, rest⟩⟩
    · contradiction
    · exact absurd hleast (by simp)
    · obtain ⟨_, hargs⟩ := List.forall_mem_cons.mp hargs
      obtain ⟨hresult, hrest⟩ := List.forall_mem_cons.mp hargs
      refine (caseRule_shares hrest ?_).adapts hresult
      simp only [List.length_cons] at hodd
      omega
  · refine Uniform.adapts fun type _ => ?_
    simp only [caseRule]
    split_ifs
    · rfl
    · rfl
    · omega

/-! ## Choice by labels -/

theorem selectBranches_type :
    ∀ {seen : List Value} {args : List Operand} {branches : List (List Value × Expr)}
      {otherwise : Typed},
      selectBranches seen (some type) args = .ok (branches, otherwise) → otherwise.type = type
  | _, [], _, _, h => by contradiction
  | _, [last], _, _, h => by
    simp only [selectBranches, Except.seq_eq_ok_iff, Except.pure_eq_ok_iff] at h
    obtain ⟨_, _, h⟩ := h
    obtain ⟨_, rfl⟩ := Prod.mk.inj h
    rfl
  | _, _ :: _ :: args, _, _, h => by
    simp only [selectBranches, Except.seq_eq_ok_iff, Except.pure_eq_ok_iff] at h
    obtain ⟨_, _, _, _, ⟨_, otherwise⟩, hrest, h⟩ := h
    obtain ⟨_, rfl⟩ := Prod.mk.inj h
    exact selectBranches_type hrest

theorem exists_selectBranches_of_passes :
    ∀ {seen : List Value} {args : List Operand},
      (∀ o ∈ args, o.Passes wanted → o.Passes wanted') →
        (∃ found, selectBranches seen (some wanted) args = .ok found) →
          ∃ found, selectBranches seen (some wanted') args = .ok found
  | _, [], _, ⟨_, h⟩ => by contradiction
  | _, [last], hpasses, ⟨_, h⟩ => by
    simp only [selectBranches, Except.seq_eq_ok_iff, Except.pure_eq_ok_iff] at h ⊢
    obtain ⟨typed, hlast, _⟩ := h
    obtain ⟨typed', hlast'⟩ := hpasses last (List.mem_singleton_self last) ⟨typed, hlast⟩
    exact ⟨_, typed', hlast', rfl⟩
  | _, label :: result :: args, hpasses, ⟨_, h⟩ => by
    obtain ⟨_, hpasses⟩ := List.forall_mem_cons.mp hpasses
    obtain ⟨hresult, hpasses⟩ := List.forall_mem_cons.mp hpasses
    simp only [selectBranches, Except.seq_eq_ok_iff, Except.pure_eq_ok_iff] at h ⊢
    obtain ⟨labels, hlabels, typed, houtput, found, hrest, _⟩ := h
    obtain ⟨typed', houtput'⟩ := hresult ⟨typed, houtput⟩
    obtain ⟨found', hrest'⟩ := exists_selectBranches_of_passes hpasses ⟨found, hrest⟩
    exact ⟨_, labels, hlabels, typed', houtput', found', hrest', rfl⟩

theorem matchRule_shares {input label result : Operand} {rest : List Operand}
    (hrest : ∀ o ∈ rest, Typing.Adapts o.infer) (heven : rest.length % 2 = 1) :
    Shares (matchRule (input :: label :: result :: rest)) result (fun type =>
      (∃ expr, input.checkExpr none = .ok expr) ∧
        ∃ labels, branchLabels [] label = .ok labels ∧
          ∃ found, selectBranches (labels ++ []) (some type) rest = .ok found) where
  answer_iff expected type := by
    have hcount : ¬(input :: label :: result :: rest).length < 4 := by simp; omega
    have hparity : ¬(input :: label :: result :: rest).length % 2 = 1 := by simp; omega
    simp only [matchRule, if_neg hcount, if_neg hparity, selectBranches, Except.seq_eq_ok_iff,
      Except.pure_eq_ok_iff]
    constructor
    · rintro ⟨_, ⟨expr, hexpr, ⟨_, otherwise⟩, ⟨labels, hlabels, output, houtput,
        ⟨branches, otherwise'⟩, hfound, heq⟩, rfl⟩, rfl⟩
      obtain ⟨_, rfl⟩ := Prod.mk.inj heq
      have htype : otherwise'.type = expected.getD output.type := selectBranches_type hfound
      exact ⟨⟨output, houtput, htype.symm⟩, ⟨expr, hexpr⟩, labels, hlabels, _, htype ▸ hfound⟩
    · rintro ⟨⟨output, houtput, rfl⟩, ⟨expr, hexpr⟩, labels, hlabels, ⟨branches, otherwise⟩, hfound⟩
      have htype : otherwise.type = expected.getD output.type := selectBranches_type hfound
      exact ⟨_, ⟨expr, hexpr, _, ⟨labels, hlabels, output, houtput, _, hfound, rfl⟩, rfl⟩, htype⟩
  others_of_null type hordered := by
    rintro ⟨hinput, labels, hlabels, hfound⟩
    exact ⟨hinput, labels, hlabels, exists_selectBranches_of_passes
      (fun o ho => (hrest o ho).passes hordered) hfound⟩

theorem matchRule_adapts : Rule.Adapts matchRule := by
  intro args hargs
  by_cases hcount : 4 ≤ args.length ∧ args.length % 2 = 0
  · obtain ⟨hleast, heven⟩ := hcount
    rcases args with _ | ⟨input, _ | ⟨label, _ | ⟨result, rest⟩⟩⟩
    · contradiction
    · exact absurd hleast (by simp)
    · exact absurd hleast (by simp)
    · obtain ⟨_, hargs⟩ := List.forall_mem_cons.mp hargs
      obtain ⟨_, hargs⟩ := List.forall_mem_cons.mp hargs
      obtain ⟨hresult, hrest⟩ := List.forall_mem_cons.mp hargs
      refine (matchRule_shares hrest ?_).adapts hresult
      simp only [List.length_cons] at heven
      omega
  · refine Uniform.adapts fun type _ => ?_
    simp only [matchRule]
    split_ifs
    · rfl
    · rfl
    · omega

/-! ## Stops -/

theorem stops_type {operator : StopOperator} :
    ∀ {previous : Option Float} {args : List Operand} {found : List (Float × Expr)}
      {shared : Option ValueType},
      stops operator previous (some type) args = .ok (found, shared) → shared = some type
  | _, [], _, _, h => (Prod.mk.inj (Except.ok.inj h)).2.symm
  | _, [_], _, _, h => by contradiction
  | _, _ :: _ :: args, _, _, h => by
    simp only [stops, Except.seq_eq_ok_iff, Except.pure_eq_ok_iff] at h
    obtain ⟨_, _, _, _, ⟨_, shared⟩, hrest, h⟩ := h
    obtain ⟨_, rfl⟩ := Prod.mk.inj h
    exact stops_type hrest

theorem exists_stops_of_passes {operator : StopOperator} :
    ∀ {previous : Option Float} {args : List Operand},
      (∀ o ∈ args, o.Passes wanted → o.Passes wanted') →
        (∃ found, stops operator previous (some wanted) args = .ok found) →
          ∃ found, stops operator previous (some wanted') args = .ok found
  | _, [], _, _ => ⟨_, rfl⟩
  | _, [_], _, ⟨_, h⟩ => by contradiction
  | _, label :: result :: args, hpasses, ⟨_, h⟩ => by
    obtain ⟨_, hpasses⟩ := List.forall_mem_cons.mp hpasses
    obtain ⟨hresult, hpasses⟩ := List.forall_mem_cons.mp hpasses
    simp only [stops, Except.seq_eq_ok_iff, Except.pure_eq_ok_iff] at h ⊢
    obtain ⟨x, hx, typed, houtput, found, hrest, _⟩ := h
    obtain ⟨typed', houtput'⟩ := hresult ⟨typed, houtput⟩
    obtain ⟨found', hrest'⟩ := exists_stops_of_passes hpasses ⟨found, hrest⟩
    exact ⟨_, x, hx, typed', houtput', found', hrest', rfl⟩

theorem stepRule_shares {input first : Operand} {rest : List Operand}
    (hrest : ∀ o ∈ rest, Typing.Adapts o.infer) (heven : rest.length % 2 = 0) :
    Shares (stepRule (input :: first :: rest)) first (fun type =>
      (∃ expr, input.checkExpr (some .number) = .ok expr) ∧
        ∃ found, stops .step none (some type) rest = .ok found) where
  answer_iff expected type := by
    have hcount : ¬(input :: first :: rest).length < 2 := by simp
    have hparity : ¬(input :: first :: rest).length % 2 = 1 := by simp; omega
    simp only [stepRule, if_neg hcount, if_neg hparity, Except.seq_eq_ok_iff,
      Except.pure_eq_ok_iff]
    constructor
    · rintro ⟨_, ⟨expr, hexpr, output, houtput, found, hfound, rfl⟩, rfl⟩
      exact ⟨⟨output, houtput, rfl⟩, ⟨expr, hexpr⟩, found, hfound⟩
    · rintro ⟨⟨output, houtput, rfl⟩, ⟨expr, hexpr⟩, found, hfound⟩
      exact ⟨_, ⟨expr, hexpr, output, houtput, found, hfound, rfl⟩, rfl⟩
  others_of_null type hordered := by
    rintro ⟨hinput, hfound⟩
    exact ⟨hinput, exists_stops_of_passes
      (fun o ho => (hrest o ho).passes hordered) hfound⟩

theorem stepRule_adapts : Rule.Adapts stepRule := by
  intro args hargs
  by_cases hcount : 2 ≤ args.length ∧ args.length % 2 = 0
  · obtain ⟨hleast, heven⟩ := hcount
    rcases args with _ | ⟨input, _ | ⟨first, rest⟩⟩
    · contradiction
    · exact absurd hleast (by simp)
    · obtain ⟨_, hargs⟩ := List.forall_mem_cons.mp hargs
      obtain ⟨hfirst, hrest⟩ := List.forall_mem_cons.mp hargs
      refine (stepRule_shares hrest ?_).adapts hfirst
      simp only [List.length_cons] at heven
      omega
  · refine Uniform.adapts fun type _ => ?_
    simp only [stepRule]
    split_ifs
    · rfl
    · rfl
    · omega

theorem interpolateRule_shares {kind input label result : Operand} {rest : List Operand}
    (heven : rest.length % 2 = 0) :
    Shares (interpolateRule (kind :: input :: label :: result :: rest)) result (fun type =>
      (∃ curve, kind.located ((interpolation kind.json).mapError .here) = .ok curve) ∧
        (∃ expr, input.checkExpr (some .number) = .ok expr) ∧
        (∃ x, stopLabel .interpolate none label = .ok x ∧
          ∃ found, stops .interpolate (some x) (some type) rest = .ok found) ∧
        isInterpolable type = true) where
  answer_iff expected type := by
    have hcount : ¬(kind :: input :: label :: result :: rest).length < 4 := by simp
    have hparity : ¬(kind :: input :: label :: result :: rest).length % 2 = 1 := by simp; omega
    simp only [interpolateRule, if_neg hcount, if_neg hparity, stops, Except.seq_eq_ok_iff,
      Except.pure_eq_ok_iff]
    constructor
    · rintro ⟨_, ⟨curve, hcurve, expr, hexpr, ⟨_, _⟩, ⟨x, hx, output, houtput, ⟨found, shared⟩,
        hfound, heq⟩, h⟩, rfl⟩
      obtain ⟨_, rfl⟩ := Prod.mk.inj heq
      obtain rfl := stops_type hfound
      split at h
      next hinterpolable =>
        obtain rfl := Except.pure_eq_ok_iff.mp h
        exact ⟨⟨output, houtput, rfl⟩, ⟨curve, hcurve⟩, ⟨expr, hexpr⟩, ⟨x, hx, _, hfound⟩,
          hinterpolable⟩
      next => contradiction
    · rintro ⟨⟨output, houtput, rfl⟩, ⟨curve, hcurve⟩, ⟨expr, hexpr⟩,
        ⟨x, hx, ⟨found, shared⟩, hfound⟩, hinterpolable⟩
      obtain rfl := stops_type hfound
      refine ⟨_, ⟨curve, hcurve, expr, hexpr, _, ⟨x, hx, output, houtput, _, hfound, rfl⟩,
        if_pos hinterpolable⟩, rfl⟩
  others_of_null type _ := by
    -- there is nothing between two `null`s
    rintro ⟨_, _, _, hinterpolable⟩
    contradiction

theorem interpolateRule_adapts : Rule.Adapts interpolateRule := by
  intro args hargs
  by_cases hcount : 4 ≤ args.length ∧ args.length % 2 = 0
  · obtain ⟨hleast, heven⟩ := hcount
    rcases args with _ | ⟨kind, _ | ⟨input, _ | ⟨label, _ | ⟨result, rest⟩⟩⟩⟩
    · contradiction
    · exact absurd hleast (by simp)
    · exact absurd hleast (by simp)
    · exact absurd hleast (by simp)
    · refine (interpolateRule_shares ?_).adapts (hargs result (by simp))
      simp only [List.length_cons] at heven
      omega
  · refine Uniform.adapts fun type _ => ?_
    simp only [interpolateRule]
    split_ifs
    · rfl
    · rfl
    · omega

/-! ## The first value there is -/

theorem coalesceArgs_type :
    ∀ {args : List Operand} {exprs : List Expr} {shared : Option ValueType},
      coalesceArgs (some type) args = .ok (exprs, shared) → shared = some type
  | [], _, _, h => (Prod.mk.inj (Except.ok.inj h)).2.symm
  | _ :: args, _, _, h => by
    rw [coalesceArgs, Except.seq_eq_ok_iff] at h
    obtain ⟨_, _, h⟩ := h
    split at h
    · simp only [Except.seq_eq_ok_iff, Except.pure_eq_ok_iff] at h
      obtain ⟨⟨_, shared⟩, hrest, h⟩ := h
      obtain ⟨_, rfl⟩ := Prod.mk.inj h
      exact coalesceArgs_type hrest
    · simp only [Except.seq_eq_ok_iff, Except.pure_eq_ok_iff] at h
      obtain ⟨_, _, ⟨_, shared⟩, hrest, h⟩ := h
      obtain ⟨_, rfl⟩ := Prod.mk.inj h
      exact coalesceArgs_type hrest

/-- Where a type is wanted, all arguments have to pass with it. -/
theorem exists_coalesceArgs_iff :
    ∀ {args : List Operand}, (∃ found, coalesceArgs (some type) args = .ok found) ↔
      ∀ o ∈ args, Fits o.infer type
  | [] => ⟨fun _ _ h => absurd h List.not_mem_nil, fun _ => ⟨_, rfl⟩⟩
  | arg :: args => by
    rw [List.forall_mem_cons, ← exists_coalesceArgs_iff, fits_iff]
    simp only [coalesceArgs, Operand.inferred, Except.seq_eq_ok_iff, Operand.located_eq_ok_iff]
    constructor
    · rintro ⟨_, typed, htyped, h⟩
      split at h
      next hloose =>
        simp only [Except.seq_eq_ok_iff, Except.pure_eq_ok_iff] at h
        obtain ⟨found, hrest, _⟩ := h
        exact ⟨⟨typed, htyped, Or.inr hloose.symm⟩, found, hrest⟩
      next =>
        simp only [Except.seq_eq_ok_iff, Except.pure_eq_ok_iff, Operand.located_eq_ok_iff] at h
        obtain ⟨fitted, hfitted, found, hrest, _⟩ := h
        exact ⟨⟨typed, htyped, Typed.exists_reconcile_iff.mp ⟨fitted, hfitted⟩⟩, found, hrest⟩
    · rintro ⟨⟨typed, htyped, htype⟩, found, hrest⟩
      by_cases hloose : typed.type = .value ∨ typed.type = .null
      · refine ⟨(typed.expr :: found.1, found.2), typed, htyped, ?_⟩
        simp only [if_pos hloose, Except.seq_eq_ok_iff, Except.pure_eq_ok_iff]
        exact ⟨found, hrest, rfl⟩
      · obtain ⟨fitted, hfitted⟩ := Typed.exists_reconcile_iff.mpr htype
        refine ⟨(fitted.expr :: found.1, found.2), typed, htyped, ?_⟩
        simp only [if_neg hloose, Except.seq_eq_ok_iff, Except.pure_eq_ok_iff,
          Operand.located_eq_ok_iff]
        exact ⟨fitted, hfitted, found, hrest, rfl⟩

/-- Where none is wanted, the arguments share the type of the first one that has one of its own. -/
theorem exists_own_of_coalesceArgs :
    ∀ {args : List Operand} {exprs : List Expr} {shared : ValueType},
      coalesceArgs none args = .ok (exprs, some shared) →
        shared ≠ .value ∧ shared ≠ .null ∧
          ∃ o ∈ args, ∃ typed, o.infer none = .ok typed ∧ typed.type = shared
  | [], _, _, h => by simp [coalesceArgs] at h
  | arg :: args, _, _, h => by
    simp only [coalesceArgs, Operand.inferred, Except.seq_eq_ok_iff, Operand.located_eq_ok_iff] at h
    obtain ⟨typed, htyped, h⟩ := h
    split at h
    next =>
      simp only [Except.seq_eq_ok_iff, Except.pure_eq_ok_iff] at h
      obtain ⟨⟨_, _⟩, hrest, h⟩ := h
      obtain ⟨_, rfl⟩ := Prod.mk.inj h
      obtain ⟨hvalue, hnull, o, ho, hown⟩ := exists_own_of_coalesceArgs hrest
      exact ⟨hvalue, hnull, o, List.mem_cons_of_mem arg ho, hown⟩
    next hown =>
      simp only [Except.seq_eq_ok_iff, Except.pure_eq_ok_iff, Operand.located_eq_ok_iff] at h
      obtain ⟨fitted, hfitted, ⟨_, _⟩, hrest, h⟩ := h
      obtain ⟨_, rfl⟩ := Prod.mk.inj h
      obtain rfl : typed = fitted := Except.ok.inj hfitted
      obtain rfl := Option.some.inj (coalesceArgs_type hrest)
      obtain ⟨hvalue, hnull⟩ := not_or.mp hown
      exact ⟨hvalue, hnull, arg, List.mem_cons_self, typed, htyped, rfl⟩

theorem coalesceRule_fits_iff {args : List Operand} :
    Fits (coalesceRule args) type ↔ args ≠ [] ∧ ∀ o ∈ args, Fits o.infer type := by
  rw [fits_iff, ← exists_coalesceArgs_iff, coalesceRule]
  split
  next hlength =>
    obtain rfl := List.length_eq_zero_iff.mp (Nat.lt_one_iff.mp hlength)
    simp [Checked.fail]
  next hlength =>
    have hne : args ≠ [] := List.ne_nil_of_length_pos (by omega)
    simp only [Except.seq_eq_ok_iff, Except.pure_eq_ok_iff]
    constructor
    · rintro ⟨_, ⟨found, hfound, _⟩, _⟩
      exact ⟨hne, found, hfound⟩
    · rintro ⟨_, ⟨exprs, shared⟩, hfound⟩
      obtain rfl := coalesceArgs_type hfound
      exact ⟨_, ⟨_, hfound, rfl⟩, Or.inl type.accepts_refl⟩

/-- The type that `coalesce` has of its own is that of an argument, or that of any value. -/
theorem coalesceRule_own {args : List Operand} {typed : Typed}
    (h : coalesceRule args none = .ok typed) :
    typed.type = .value ∨ typed.type ≠ .value ∧ typed.type ≠ .null ∧
      ∃ o ∈ args, ∃ own, o.infer none = .ok own ∧ own.type = typed.type := by
  rw [coalesceRule] at h
  split at h
  · contradiction
  · simp only [Except.seq_eq_ok_iff, Except.pure_eq_ok_iff] at h
    obtain ⟨⟨exprs, shared⟩, hfound, rfl⟩ := h
    cases shared with
    | none => exact Or.inl rfl
    | some shared => exact Or.inr (exists_own_of_coalesceArgs hfound)

theorem coalesceRule_adapts : Rule.Adapts coalesceRule := fun args hargs => {
  own := by
    intro typed type hown hordered hfits
    obtain ⟨_, hall⟩ := coalesceRule_fits_iff.mp hfits
    rcases coalesceRule_own hown with hvalue | ⟨_, _, o, ho, own, hinfer, htype⟩
    · exact Or.inl hvalue
    · rw [← htype]
      exact (hargs o ho).own hinfer hordered (hall o ho)
  null := by
    intro typed type hown hnull hordered
    rcases coalesceRule_own hown with hvalue | ⟨_, hne, _⟩
    · exact absurd (hvalue.symm.trans hnull) (by simp)
    · exact absurd hnull hne
  wantedNull := by
    intro type hordered hfits
    obtain ⟨hne, hall⟩ := coalesceRule_fits_iff.mp hfits
    exact coalesceRule_fits_iff.mpr
      ⟨hne, fun o ho => (hargs o ho).wantedNull hordered (hall o ho)⟩ }

end Outputs

/-! ## The table -/

/-- **Every operator adapts if its arguments do.** -/
theorem operators_adapt : ∀ entry ∈ operators, Rule.Adapts entry.2 := by
  simp only [operators, List.forall_mem_cons]
  exact ⟨
    literalRule_uniform.adapts,
    (unaryRule_uniform _ _ _).adapts,
    (unaryRule_uniform _ _ _).adapts,
    .of_ignoring _,
    .of_ignoring _,
    .of_ignoring _,
    .of_ignoring _,
    .of_ignoring _,
    .of_ignoring _,
    .of_ignoring _,
    .of_ignoring _,
    .of_ignoring _,
    .of_ignoring _,
    (equalityRule_uniform .equal).adapts,
    (equalityRule_uniform .notEqual).adapts,
    (orderRule_uniform .less).adapts,
    (orderRule_uniform .lessEqual).adapts,
    (orderRule_uniform .greater).adapts,
    (orderRule_uniform .greaterEqual).adapts,
    (unaryRule_uniform _ _ _).adapts,
    .of_ignoring _,
    .of_ignoring _,
    caseRule_adapts,
    matchRule_adapts,
    coalesceRule_adapts,
    .of_ignoring _,
    .of_ignoring _,
    .of_ignoring _,
    .of_ignoring _,
    arrayRule_uniform.adapts,
    .of_ignoring _,
    .of_ignoring _,
    .of_ignoring _,
    .of_ignoring _,
    .of_ignoring _,
    .of_ignoring _,
    stepRule_adapts,
    interpolateRule_adapts,
    fun _ h => absurd h List.not_mem_nil⟩

theorem apply_adapts {head : Json} {args : List Operand}
    (hargs : ∀ o ∈ args, Typing.Adapts o.infer) : Typing.Adapts (apply head args) := by
  unfold apply
  split
  next name =>
    cases hrule : rule? name with
    | none => exact Uniform.adapts fun _ _ => rfl
    | some rule =>
      exact operators_adapt (name, rule) (Members.mem_of_lookup hrule) args hargs
  next => exact Uniform.adapts fun _ _ => rfl

end Typing

open Typing

namespace Json

mutual

/-- **Every expression adapts** to a number or a string that is wanted. -/
theorem infer_adapts : ∀ json : Json, Adapts json.infer
  | .array [] => Uniform.adapts fun _ _ => rfl
  | .array (_ :: args) => apply_adapts (operands_adapt args)
  | .object _ => Uniform.adapts fun _ _ => rfl
  | .null => (constant_uniform _).adapts
  | .bool _ => (constant_uniform _).adapts
  | .number _ => (constant_uniform _).adapts
  | .string _ => (constant_uniform _).adapts

theorem operands_adapt : ∀ (args : List Json) {index : Nat},
    ∀ o ∈ operands index args, Adapts o.infer
  | [], _, _, h => absurd h List.not_mem_nil
  | json :: rest, _, o, h => by
    rcases List.mem_cons.mp h with rfl | hrest
    · exact infer_adapts json
    · exact operands_adapt rest o hrest

end

end Json

end Symbology
