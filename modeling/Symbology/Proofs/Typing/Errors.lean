import Symbology.Proofs.Related
import Symbology.Proofs.Typing.Grammar
import Symbology.Proofs.Typing.Rules
import Symbology.Typing.Infer

set_option autoImplicit false

/-! # Where the errors of the checker come from

An error of an operator is its own, of the whole or of one argument, or it is the error of an
expression among its arguments (`Form.Raised`). Its own error is one that the form allows for,
unless the arguments do not have the form. So an expression that is grammatical is refused only for
its types, its colors and what its operators object to (`Json.objection_of_check_eq_error`). -/

namespace Symbology

open Typing

/-! ## Arguments -/

theorem Typed.reconcile_eq_error {expected : Option ValueType} {typed : Typed} {e : CompileError}
    (h : typed.reconcile expected = .error e) :
    ∃ wanted actual, e = .here (.typeMismatch wanted actual) := by
  unfold reconcile at h
  split at h
  · contradiction
  next wanted =>
    split at h
    · contradiction
    · split at h
      · contradiction
      · split at h
        · contradiction
        · exact ⟨wanted, typed.type, (Except.error.inj h).symm⟩

theorem Typed.constant_eq_error {expected : Option ValueType} {value : Value} {e : CompileError}
    (h : constant expected value = .error e) : ∃ error, e = .here (.color error) := by
  rw [constant, Except.map_eq_error_iff] at h
  unfold constantValue at h
  split at h
  · split at h
    · contradiction
    next error _ => exact ⟨error, (Except.error.inj h).symm⟩
  · contradiction

namespace Operand

variable {α : Type} {o : Operand} {e : CompileError}

theorem located_eq_error_iff {answer : Checked α} :
    o.located answer = .error e ↔ ∃ inner, answer = .error inner ∧ inner.inside o.index = e :=
  Except.mapError_eq_error_iff

theorem located_here_eq_error_iff {answer : Except CompileError.Cause α} :
    o.located (answer.mapError .here) = .error e ↔
      ∃ cause, answer = .error cause ∧ (CompileError.here cause).inside o.index = e := by
  simp [located_eq_error_iff]

end Operand

namespace Typing

/-! ## Errors of operators -/

/-- **The errors of an operator** with some arguments. -/
inductive Form.Raised (form : Form) (args : List Operand) : CompileError → Prop
  | whole {cause : CompileError.Cause}
      (objects : form.Fits (args.map (·.json)) → form.objects cause) :
      Form.Raised form args (.here cause)
  | argument {o : Operand} {cause : CompileError.Cause} (member : o ∈ args)
      (objects : form.Fits (args.map (·.json)) → form.objects cause) :
      Form.Raised form args ((CompileError.here cause).inside o.index)
  /-- An expression is not of the type that is wanted. -/
  | unfit {o : Operand} {wanted actual : ValueType} (place : (Role.expression, o) ∈ form.placed args) :
      Form.Raised form args ((CompileError.here (.typeMismatch wanted actual)).inside o.index)
  /-- An expression is refused itself. -/
  | inherited {o : Operand} {expected : Option ValueType} {e : CompileError}
      (place : (Role.expression, o) ∈ form.placed args) (refused : o.infer expected = .error e) :
      Form.Raised form args (e.inside o.index)

/-- All errors of the rule are those of its form. -/
def Rule.Raises (rule : Rule) (form : Form) : Prop :=
  ∀ (args : List Operand) (expected : Option ValueType) (e : CompileError),
    rule args expected = .error e → form.Raised args e

namespace Form

variable {form : Form} {args : List Operand} {o : Operand} {e : CompileError}
  {expected : Option ValueType}

theorem placed_map {α β : Type} (f : α → β) (args : List α) :
    form.placed (args.map f) = (form.placed args).map (Prod.map id f) := by
  unfold placed
  rw [List.length_map, ← List.map_id ((form.roles args.length).getD []), List.zip_map, List.map_id]

theorem mem_of_mem_placed {role : Role} (h : (role, o) ∈ form.placed args) : o ∈ args :=
  (List.of_mem_zip h).2

/-- An argument that cannot be read at its place. -/
theorem not_fits_of_not_admits {role : Role} (hplace : (role, o) ∈ form.placed args)
    (hrefused : role.admits o.json = false) : ¬form.Fits (args.map (·.json)) := by
  rintro ⟨_, hadmits⟩
  rw [placed_map] at hadmits
  have hadmit : role.admits o.json = true := hadmits _ (List.mem_map_of_mem hplace)
  rw [hrefused] at hadmit
  contradiction

theorem Raised.of_count {cause : CompileError.Cause} (h : form.roles args.length = none) :
    form.Raised args (.here cause) := by
  refine .whole (fun hfits => ?_)
  have hcount := hfits.1
  rw [List.length_map, h] at hcount
  contradiction

theorem Raised.of_not_admits {role : Role} {cause : CompileError.Cause}
    (hplace : (role, o) ∈ form.placed args) (hrefused : role.admits o.json = false) :
    form.Raised args ((CompileError.here cause).inside o.index) :=
  .argument (mem_of_mem_placed hplace)
    (fun hfits => absurd hfits (not_fits_of_not_admits hplace hrefused))

/-- An expression is refused itself, or is not of the type that is wanted. -/
theorem Raised.of_check (hplace : (Role.expression, o) ∈ form.placed args)
    (h : o.check expected = .error e) : form.Raised args e := by
  obtain ⟨e', hbind, rfl⟩ := Operand.located_eq_error_iff.mp h
  rcases Except.bind_eq_error_iff.mp hbind with hinfer | ⟨typed, _, hfit⟩
  · exact .inherited hplace hinfer
  · obtain ⟨wanted, actual, rfl⟩ := Typed.reconcile_eq_error hfit
    exact .unfit hplace

theorem Raised.of_checkExpr (hplace : (Role.expression, o) ∈ form.placed args)
    (h : o.checkExpr expected = .error e) : form.Raised args e :=
  .of_check hplace (Except.map_eq_error_iff.mp h)

/-! ## Operators whose arguments are all expressions -/

theorem mem_placed_of_replicate
    (hroles : form.roles args.length = some (List.replicate args.length .expression))
    (ho : o ∈ args) : (Role.expression, o) ∈ form.placed args := by
  have hzip : ∀ os : List Operand, o ∈ os →
      (Role.expression, o) ∈ (List.replicate os.length Role.expression).zip os := by
    intro os ho
    induction os with
    | nil => contradiction
    | cons first rest ih =>
      rw [List.length_cons, List.replicate_succ, List.zip_cons_cons]
      rcases List.mem_cons.mp ho with rfl | hrest
      · exact List.mem_cons_self
      · exact List.mem_cons_of_mem _ (ih hrest)
  rw [placed, hroles]
  exact hzip args ho

theorem expressions_roles {takes : Nat → Bool} {count : Nat} (h : takes count = true) :
    (expressions takes).roles count = some (List.replicate count .expression) :=
  if_pos h

end Form

/-- The check of the number of arguments fails just where so many are not taken. -/
def Counts (check : List Operand → Checked Unit) (takes : Nat → Bool) : Prop :=
  ∀ args : List Operand,
    (takes args.length = true ∧ check args = .ok ()) ∨
      (takes args.length = false ∧ ∃ cause, check args = .error (.here cause))

theorem Counts.of_ok {check : List Operand → Checked Unit} {takes : Nat → Bool}
    (h : Counts check takes) {args : List Operand} (hcheck : check args = .ok ()) :
    takes args.length = true := by
  rcases h args with ⟨htakes, _⟩ | ⟨_, cause, hrefused⟩
  · exact htakes
  · rw [hcheck] at hrefused
    contradiction

theorem Counts.of_error {check : List Operand → Checked Unit} {takes : Nat → Bool}
    (h : Counts check takes) {args : List Operand} {e : CompileError}
    (hcheck : check args = .error e) : takes args.length = false ∧ ∃ cause, e = .here cause := by
  rcases h args with ⟨_, haccepted⟩ | ⟨htakes, cause, hrefused⟩
  · rw [hcheck] at haccepted
    contradiction
  · exact ⟨htakes, cause, Except.error.inj (hcheck.symm.trans hrefused)⟩

theorem expectCount_counts (count : Nat) : Counts (expectCount count) (· = count) := by
  intro args
  unfold expectCount
  split
  next h => exact Or.inl ⟨by simpa using h, rfl⟩
  next h => exact Or.inr ⟨by simpa using h, _, rfl⟩

theorem expectAtLeast_counts (least : Nat) : Counts (expectAtLeast least) (least ≤ ·) := by
  intro args
  unfold expectAtLeast
  split
  next h => exact Or.inr ⟨by simpa using h, _, rfl⟩
  next h => exact Or.inl ⟨by simpa using h, rfl⟩

theorem expectSubtract_counts :
    Counts (expectOperands .subtract) (fun count => count = 1 ∨ count = 2) := by
  intro args
  unfold expectOperands expectCount
  dsimp only
  split
  next h => exact Or.inl ⟨by simp [h], rfl⟩
  next h =>
    split
    next h' => exact Or.inl ⟨by simp [h'], rfl⟩
    next h' => exact Or.inr ⟨by simp [h, h'], _, rfl⟩

/-- An operator that counts its arguments and checks them all alike. -/
theorem checkAll_raises {check : List Operand → Checked Unit} {takes : Nat → Bool}
    (hcounts : Counts check takes) (wanted : Option ValueType) (build : List Expr → Typed) :
    Rule.Raises (fun args _ => do
      check args
      return build (← Operand.checkAll args wanted)) (.expressions takes) := by
  intro args expected e h
  rcases Except.seq_eq_error_iff.mp h with hcheck | ⟨_, hcheck, hall⟩
  · obtain ⟨htakes, cause, rfl⟩ := hcounts.of_error hcheck
    exact .of_count (if_neg (by simp [htakes]))
  · have hroles := Form.expressions_roles (hcounts.of_ok hcheck)
    rcases Except.seq_eq_error_iff.mp hall with hall | ⟨_, _, hpure⟩
    · obtain ⟨o, ho, hexpr⟩ := Except.mapM_eq_error hall
      exact .of_checkExpr (Form.mem_placed_of_replicate hroles ho) hexpr
    · exact absurd hpure Except.pure_ne_error

theorem arithmeticRule_raises (operation : Arithmetic) :
    Rule.Raises (arithmeticRule operation) (.arithmetic operation) := by
  cases operation with
  | add | multiply => exact checkAll_raises (expectAtLeast_counts 2) _ _
  | subtract => exact checkAll_raises expectSubtract_counts _ _
  | divide | remainder | power => exact checkAll_raises (expectCount_counts 2) _ _

theorem logicRule_raises (build : List Expr → Expr) :
    Rule.Raises (logicRule build) (.expressions (fun _ => true)) :=
  have hcounts : Counts (fun _ => .ok ()) (fun _ => true) := fun _ => Or.inl ⟨rfl, rfl⟩
  checkAll_raises hcounts _ (fun exprs => ⟨build exprs, .boolean⟩)

theorem assertionRule_raises (target : ValueType) :
    Rule.Raises (assertionRule target) (.expressions (1 ≤ ·)) :=
  checkAll_raises (expectAtLeast_counts 1) _ (fun exprs => ⟨.assertion target exprs, target⟩)

theorem conversionRule_raises (target : Conversion) :
    Rule.Raises (conversionRule target) (.conversion target) := by
  cases target with
  | number | color => exact checkAll_raises (expectAtLeast_counts 1) _ _
  | string | boolean => exact checkAll_raises (expectCount_counts 1) _ _

theorem rgbaRule_raises (count : Nat) :
    Rule.Raises (rgbaRule count) (.expressions (· = count)) :=
  checkAll_raises (expectCount_counts count) _ (fun exprs => ⟨.rgba exprs, .color⟩)

/-! ## Operators with few arguments -/

theorem literalRule_raises : Rule.Raises literalRule .literal := by
  intro args expected e h
  unfold literalRule at h
  split at h
  next arg =>
    obtain ⟨error, rfl⟩ := Typed.constant_eq_error h
    exact .whole (fun _ => ⟨error, rfl⟩)
  next hcount =>
    obtain rfl := Except.error.inj h
    refine .of_count (if_neg (fun hlength => ?_))
    obtain ⟨arg, rfl⟩ := List.length_eq_one_iff.mp hlength
    exact hcount arg rfl

theorem plainRule_raises {expr : Expr} {type : ValueType} :
    Rule.Raises (plainRule expr type) (.fixed []) := by
  intro args expected e h
  rcases Except.seq_eq_error_iff.mp h with hcheck | ⟨_, _, hpure⟩
  · obtain ⟨htakes, cause, rfl⟩ := (expectCount_counts 0).of_error hcheck
    exact .of_count (if_neg (by simpa using htakes))
  · exact absurd hpure Except.pure_ne_error

theorem unaryRule_raises {argument type : ValueType} {build : Expr → Expr} :
    Rule.Raises (unaryRule argument build type) (.fixed [.expression]) := by
  intro args expected e h
  unfold unaryRule at h
  split at h
  next arg =>
    rcases Except.seq_eq_error_iff.mp h with hexpr | ⟨_, _, hpure⟩
    · exact .of_checkExpr List.mem_cons_self hexpr
    · exact absurd hpure Except.pure_ne_error
  next hcount =>
    obtain rfl := Except.error.inj h
    refine .of_count (if_neg (fun hlength => ?_))
    obtain ⟨arg, rfl⟩ := List.length_eq_one_iff.mp hlength
    exact hcount arg rfl

theorem equalityRule_raises (relation : Comparison) :
    Rule.Raises (equalityRule relation) .equality := by
  intro args expected e h
  unfold equalityRule at h
  split at h
  next left right =>
    have hplace : ∀ o ∈ [left, right], (Role.expression, o) ∈ Form.equality.placed [left, right] :=
      fun o ho => Form.mem_placed_of_replicate rfl ho
    rcases Except.seq_eq_error_iff.mp h with hleft | ⟨l, _, h⟩
    · exact .of_check (hplace left (by simp)) hleft
    · rcases Except.seq_eq_error_iff.mp h with hright | ⟨r, _, h⟩
      · exact .of_check (hplace right (by simp)) hright
      · split at h
        · exact absurd h Except.pure_ne_error
        · obtain rfl := Except.error.inj h
          exact .whole (fun _ => ⟨l.type, r.type, rfl⟩)
  next hcount =>
    obtain rfl := Except.error.inj h
    refine .of_count (if_neg (fun hlength => ?_))
    obtain ⟨left, right, rfl⟩ := List.length_eq_two.mp (by simpa using hlength)
    exact hcount left right rfl

theorem orderedWith_eq_error {type : ValueType} {cause : CompileError.Cause}
    (h : orderedWith type = .error cause) : cause = .notOrdered type := by
  unfold orderedWith at h
  split at h
  · contradiction
  · contradiction
  · contradiction
  · exact (Except.error.inj h).symm

theorem orderRule_raises (order : Ordered) : Rule.Raises (orderRule order) .order := by
  intro args expected e h
  unfold orderRule at h
  split at h
  next left right =>
    have hplace : ∀ o ∈ [left, right], (Role.expression, o) ∈ Form.order.placed [left, right] :=
      fun o ho => Form.mem_placed_of_replicate rfl ho
    rcases Except.seq_eq_error_iff.mp h with hleft | ⟨l, _, h⟩
    · exact .of_check (hplace left (by simp)) hleft
    · rcases Except.seq_eq_error_iff.mp h with hordered | ⟨wanted, _, h⟩
      · obtain ⟨cause, hcause, rfl⟩ := Operand.located_here_eq_error_iff.mp hordered
        exact .argument (by simp) (fun _ => ⟨l.type, orderedWith_eq_error hcause⟩)
      · rcases Except.seq_eq_error_iff.mp h with hright | ⟨_, _, hpure⟩
        · exact .of_checkExpr (hplace right (by simp)) hright
        · exact absurd hpure Except.pure_ne_error
  next hcount =>
    obtain rfl := Except.error.inj h
    refine .of_count (if_neg (fun hlength => ?_))
    obtain ⟨left, right, rfl⟩ := List.length_eq_two.mp (by simpa using hlength)
    exact hcount left right rfl

/-! ## The assertion of an array -/

theorem Form.Raised.of_assertArray {form : Form} {args : List Operand} {value : Operand}
    {e : CompileError} {item : ValueType} {length : Option Nat}
    (hplace : (Role.expression, value) ∈ form.placed args)
    (h : assertArray item length value = .error e) : form.Raised args e := by
  rcases Except.seq_eq_error_iff.mp h with hexpr | ⟨_, _, hpure⟩
  · exact .of_checkExpr hplace hexpr
  · exact absurd hpure Except.pure_ne_error

theorem Form.Raised.of_itemType {form : Form} {args : List Operand} {o : Operand}
    {e : CompileError} (hplace : (Role.itemType, o) ∈ form.placed args)
    (h : Typing.itemType o = .error e) : form.Raised args e := by
  unfold Typing.itemType at h
  split at h
  · contradiction
  next hnone =>
    obtain rfl := Except.error.inj h
    exact .of_not_admits hplace (by simp [Role.admits, hnone])

theorem Form.Raised.of_arrayLength {form : Form} {args : List Operand} {o : Operand}
    {e : CompileError} (hplace : (Role.arrayLength, o) ∈ form.placed args)
    (h : Typing.arrayLength o = .error e) : form.Raised args e := by
  unfold Typing.arrayLength at h
  split at h
  · contradiction
  next hnone =>
    obtain rfl := Except.error.inj h
    exact .of_not_admits hplace (by simp [Role.admits, hnone])

theorem arrayRule_raises : Rule.Raises arrayRule .array := by
  intro args expected e h
  unfold arrayRule at h
  split at h
  next value => exact .of_assertArray List.mem_cons_self h
  next item value =>
    rcases Except.seq_eq_error_iff.mp h with hitem | ⟨type, _, h⟩
    · exact .of_itemType List.mem_cons_self hitem
    · exact .of_assertArray (List.mem_cons_of_mem _ List.mem_cons_self) h
  next item length value =>
    rcases Except.seq_eq_error_iff.mp h with hitem | ⟨type, _, h⟩
    · exact .of_itemType List.mem_cons_self hitem
    · rcases Except.seq_eq_error_iff.mp h with hlength | ⟨n, _, h⟩
      · exact .of_arrayLength (List.mem_cons_of_mem _ List.mem_cons_self) hlength
      · refine .of_assertArray ?_ h
        exact List.mem_cons_of_mem _ (List.mem_cons_of_mem _ List.mem_cons_self)
  next hone htwo hthree =>
    obtain rfl := Except.error.inj h
    refine .of_count ?_
    rcases args with _ | ⟨first, _ | ⟨second, _ | ⟨third, _ | ⟨fourth, rest⟩⟩⟩⟩
    · rfl
    · exact absurd rfl (hone first)
    · exact absurd rfl (htwo first second)
    · exact absurd rfl (hthree first second third)
    · rfl

/-! ## Branches -/

variable {whole : List Operand}

/-- Conditions and outputs are expressions. -/
theorem caseBranches_raises {form : Form} :
    ∀ {output : Option ValueType} {args : List Operand} {e : CompileError},
      (∀ o ∈ args, (Role.expression, o) ∈ form.placed whole) → args.length % 2 = 1 →
        caseBranches output args = .error e → form.Raised whole e
  | _, [], _, _, hodd, _ => by simp at hodd
  | output, [last], e, hargs, _, h => by
    rcases Except.seq_eq_error_iff.mp h with hlast | ⟨_, _, hpure⟩
    · exact .of_check (hargs last (by simp)) hlast
    · exact absurd hpure Except.pure_ne_error
  | output, condition :: result :: rest, e, hargs, hodd, h => by
    rcases Except.seq_eq_error_iff.mp h with htest | ⟨test, _, h⟩
    · exact .of_checkExpr (hargs condition (by simp)) htest
    · rcases Except.seq_eq_error_iff.mp h with hresult | ⟨typed, _, h⟩
      · exact .of_check (hargs result (by simp)) hresult
      · rcases Except.seq_eq_error_iff.mp h with hrest | ⟨_, _, hpure⟩
        · refine caseBranches_raises (fun o ho => hargs o ?_) (by simp at hodd; omega) hrest
          exact List.mem_cons_of_mem _ (List.mem_cons_of_mem _ ho)
        · exact absurd hpure Except.pure_ne_error

theorem caseRule_raises : Rule.Raises caseRule .conditions := by
  intro args expected e h
  unfold caseRule at h
  split at h
  next hfew =>
    obtain rfl := Except.error.inj h
    exact .of_count (if_neg (by simp; omega))
  next hmany =>
    split at h
    next heven =>
      obtain rfl := Except.error.inj h
      exact .of_count (if_neg (by simp; omega))
    next hodd =>
      have hroles : Form.conditions.roles args.length =
          some (List.replicate args.length .expression) :=
        Form.expressions_roles (by simp; omega)
      rcases Except.seq_eq_error_iff.mp h with hbranches | ⟨_, _, hpure⟩
      · exact caseBranches_raises (fun o ho => Form.mem_placed_of_replicate hroles ho) (by omega)
          hbranches
      · exact absurd hpure Except.pure_ne_error

theorem labelValues_eq_error {seen : List Value} {labels : List Json} {cause : CompileError.Cause}
    (h : labelValues seen labels = .error cause) :
    cause = .labelKind ∨ cause = .labelRepeated := by
  fun_induction labelValues seen labels with
  | case1 => contradiction
  | case2 => exact Or.inl (Except.error.inj h).symm
  | case3 => exact Or.inr (Except.error.inj h).symm
  | case4 seen label rest value hvalue hfresh ih => exact ih (Except.map_eq_error_iff.mp h)

theorem branchLabels_eq_error {seen : List Value} {o : Operand} {e : CompileError}
    (h : branchLabels seen o = .error e) :
    ∃ cause, Form.choice.objects cause ∧ e = (CompileError.here cause).inside o.index := by
  have hlabels : ∀ labels, o.located ((labelValues seen labels).mapError .here) = .error e →
      ∃ cause, Form.choice.objects cause ∧ e = (CompileError.here cause).inside o.index := by
    intro labels hlocated
    obtain ⟨cause, hcause, rfl⟩ := Operand.located_here_eq_error_iff.mp hlocated
    refine ⟨cause, ?_, rfl⟩
    rcases labelValues_eq_error hcause with rfl | rfl <;> simp [Form.choice]
  unfold branchLabels at h
  split at h
  · exact ⟨.noLabel, List.mem_cons_self, (Except.error.inj h).symm⟩
  · exact hlabels _ h
  · exact hlabels _ h

/-- Labels and outputs stand in turn, and behind them the last output. -/
theorem selectBranches_raises :
    ∀ {seen : List Value} {output : Option ValueType} {args : List Operand} {e : CompileError},
      (alternating .branchLabels args.length).zip args ⊆ Form.choice.placed whole →
        args.length % 2 = 1 → selectBranches seen output args = .error e →
          Form.choice.Raised whole e
  | _, _, [], _, _, hodd, _ => by simp at hodd
  | _, output, [last], e, hargs, _, h => by
    rcases Except.seq_eq_error_iff.mp h with hlast | ⟨_, _, hpure⟩
    · exact .of_check (hargs List.mem_cons_self) hlast
    · exact absurd hpure Except.pure_ne_error
  | seen, output, label :: result :: rest, e, hargs, hodd, h => by
    obtain ⟨hlabel, hargs⟩ := List.cons_subset.mp hargs
    obtain ⟨hresult, hargs⟩ := List.cons_subset.mp hargs
    rcases Except.seq_eq_error_iff.mp h with hlabels | ⟨labels, _, h⟩
    · obtain ⟨cause, hcause, rfl⟩ := branchLabels_eq_error hlabels
      exact .argument (Form.mem_of_mem_placed hlabel) (fun _ => hcause)
    · rcases Except.seq_eq_error_iff.mp h with houtput | ⟨typed, _, h⟩
      · exact .of_check hresult houtput
      · rcases Except.seq_eq_error_iff.mp h with hrest | ⟨_, _, hpure⟩
        · exact selectBranches_raises hargs (by simp at hodd; omega) hrest
        · exact absurd hpure Except.pure_ne_error

theorem matchRule_raises : Rule.Raises matchRule .choice := by
  intro args expected e h
  unfold matchRule at h
  split at h
  next hfew =>
    obtain rfl := Except.error.inj h
    exact .of_count (if_neg (by omega))
  next hmany =>
    split at h
    next hodd =>
      obtain rfl := Except.error.inj h
      exact .of_count (if_neg (by omega))
    next heven =>
      rcases args with _ | ⟨input, rest⟩
      · exact absurd hmany (by simp)
      · have hplaced : Form.choice.placed (input :: rest) =
            (.expression, input) :: (alternating .branchLabels rest.length).zip rest := by
          have hroles : Form.choice.roles (input :: rest).length =
              some (.expression :: alternating .branchLabels rest.length) :=
            if_pos ⟨by omega, by omega⟩
          rw [Form.placed, hroles]
          rfl
        rcases Except.seq_eq_error_iff.mp h with hinput | ⟨typed, _, h⟩
        · exact .of_checkExpr (hplaced ▸ List.mem_cons_self) hinput
        · rcases Except.seq_eq_error_iff.mp h with hbranches | ⟨_, _, hpure⟩
          · refine selectBranches_raises ?_ ?_ hbranches
            · rw [hplaced]
              exact List.subset_cons_self _ _
            · rw [List.length_cons] at heven
              omega
          · exact absurd hpure Except.pure_ne_error

theorem coalesceArgs_raises {form : Form} :
    ∀ {output : Option ValueType} {args : List Operand} {e : CompileError},
      (∀ o ∈ args, (Role.expression, o) ∈ form.placed whole) →
        coalesceArgs output args = .error e → form.Raised whole e
  | _, [], _, _, h => by contradiction
  | output, o :: rest, e, hargs, h => by
    obtain ⟨hplace, hrest⟩ := List.forall_mem_cons.mp hargs
    rcases Except.seq_eq_error_iff.mp h with hinfer | ⟨typed, _, h⟩
    · obtain ⟨_, hrefused, rfl⟩ := Operand.located_eq_error_iff.mp hinfer
      exact .inherited hplace hrefused
    · split at h
      · rcases Except.seq_eq_error_iff.mp h with h | ⟨_, _, hpure⟩
        · exact coalesceArgs_raises hrest h
        · exact absurd hpure Except.pure_ne_error
      · rcases Except.seq_eq_error_iff.mp h with hfit | ⟨fitted, _, h⟩
        · obtain ⟨_, hrefused, rfl⟩ := Operand.located_eq_error_iff.mp hfit
          obtain ⟨wanted, actual, rfl⟩ := Typed.reconcile_eq_error hrefused
          exact .unfit hplace
        · rcases Except.seq_eq_error_iff.mp h with h | ⟨_, _, hpure⟩
          · exact coalesceArgs_raises hrest h
          · exact absurd hpure Except.pure_ne_error

theorem coalesceRule_raises : Rule.Raises coalesceRule (.expressions (1 ≤ ·)) := by
  intro args expected e h
  unfold coalesceRule at h
  split at h
  next hfew =>
    obtain rfl := Except.error.inj h
    exact .of_count (if_neg (by simpa using hfew))
  next hmany =>
    have hroles : (Form.expressions (1 ≤ ·)).roles args.length =
        some (List.replicate args.length .expression) :=
      Form.expressions_roles (by simpa using Nat.le_of_not_lt hmany)
    rcases Except.seq_eq_error_iff.mp h with hargs | ⟨_, _, hpure⟩
    · exact coalesceArgs_raises (fun o ho => Form.mem_placed_of_replicate hroles ho) hargs
    · exact absurd hpure Except.pure_ne_error

/-! ## Stops -/

theorem Form.Raised.of_stopLabel {form : Form} {operator : StopOperator}
    (horder : form.objects (.stopOrder operator)) {previous : Option Float} {o : Operand}
    {e : CompileError} (hplace : (Role.stopLabel, o) ∈ form.placed whole)
    (h : Typing.stopLabel operator previous o = .error e) : form.Raised whole e := by
  unfold Typing.stopLabel at h
  split at h
  next hnone =>
    obtain rfl := Except.error.inj h
    exact .of_not_admits hplace (by simp [Role.admits, hnone])
  next label _ =>
    split at h
    · obtain rfl := Except.error.inj h
      exact .argument (Form.mem_of_mem_placed hplace) (fun _ => horder)
    · contradiction

/-- Labels and outputs stand in turn. -/
theorem stops_raises {form : Form} {operator : StopOperator}
    (horder : form.objects (.stopOrder operator)) :
    ∀ {previous : Option Float} {output : Option ValueType} {args : List Operand}
      {e : CompileError},
      (alternating .stopLabel args.length).zip args ⊆ form.placed whole →
        args.length % 2 = 0 → stops operator previous output args = .error e →
          form.Raised whole e
  | _, _, [], _, _, _, h => by contradiction
  | _, _, [_], _, _, heven, _ => by simp at heven
  | previous, output, label :: result :: rest, e, hargs, heven, h => by
    obtain ⟨hlabel, hargs⟩ := List.cons_subset.mp hargs
    obtain ⟨hresult, hargs⟩ := List.cons_subset.mp hargs
    rcases Except.seq_eq_error_iff.mp h with hnumber | ⟨x, _, h⟩
    · exact .of_stopLabel horder hlabel hnumber
    · rcases Except.seq_eq_error_iff.mp h with houtput | ⟨typed, _, h⟩
      · exact .of_check hresult houtput
      · rcases Except.seq_eq_error_iff.mp h with hrest | ⟨_, _, hpure⟩
        · exact stops_raises horder hargs (by simp at heven; omega) hrest
        · exact absurd hpure Except.pure_ne_error

theorem stepRule_raises : Rule.Raises stepRule .step := by
  intro args expected e h
  unfold stepRule at h
  split at h
  next hfew =>
    obtain rfl := Except.error.inj h
    exact .of_count (if_neg (by omega))
  next hmany =>
    split at h
    next hodd =>
      obtain rfl := Except.error.inj h
      exact .of_count (if_neg (by omega))
    next heven =>
      rcases args with _ | ⟨input, _ | ⟨first, rest⟩⟩
      · exact absurd hmany (by simp)
      · exact absurd hmany (by simp)
      · have hplaced : Form.step.placed (input :: first :: rest) = (.expression, input) ::
            (.expression, first) :: (alternating .stopLabel rest.length).zip rest := by
          have hroles : Form.step.roles (input :: first :: rest).length =
              some (.expression :: .expression :: alternating .stopLabel rest.length) :=
            if_pos ⟨by omega, by omega⟩
          rw [Form.placed, hroles]
          rfl
        rcases Except.seq_eq_error_iff.mp h with hinput | ⟨typed, _, h⟩
        · exact .of_checkExpr (hplaced ▸ List.mem_cons_self) hinput
        · rcases Except.seq_eq_error_iff.mp h with hfirst | ⟨typed', _, h⟩
          · exact .of_check (hplaced ▸ List.mem_cons_of_mem _ List.mem_cons_self) hfirst
          · rcases Except.seq_eq_error_iff.mp h with hstops | ⟨_, _, hpure⟩
            · have horder : Form.step.objects (.stopOrder .step) := rfl
              refine stops_raises horder ?_ ?_ hstops
              · rw [hplaced]
                exact fun place hplace => List.mem_cons_of_mem _ (List.mem_cons_of_mem _ hplace)
              · rw [List.length_cons, List.length_cons] at heven
                omega
            · exact absurd hpure Except.pure_ne_error

theorem interpolateRule_raises : Rule.Raises interpolateRule .interpolate := by
  intro args expected e h
  unfold interpolateRule at h
  split at h
  next hfew =>
    obtain rfl := Except.error.inj h
    exact .of_count (if_neg (by omega))
  next hmany =>
    split at h
    next hodd =>
      obtain rfl := Except.error.inj h
      exact .of_count (if_neg (by omega))
    next heven =>
      rcases args with _ | ⟨kind, _ | ⟨input, rest⟩⟩
      · exact absurd hmany (by simp)
      · exact absurd hmany (by simp)
      · have hplaced : Form.interpolate.placed (kind :: input :: rest) = (.interpolation, kind) ::
            (.expression, input) :: (alternating .stopLabel rest.length).zip rest := by
          have hroles : Form.interpolate.roles (kind :: input :: rest).length =
              some (.interpolation :: .expression :: alternating .stopLabel rest.length) :=
            if_pos ⟨by omega, by omega⟩
          rw [Form.placed, hroles]
          rfl
        rcases Except.seq_eq_error_iff.mp h with hkind | ⟨kind', _, h⟩
        · obtain ⟨cause, hcause, rfl⟩ := Operand.located_here_eq_error_iff.mp hkind
          exact .of_not_admits (hplaced ▸ List.mem_cons_self)
            (by simp [Role.admits, hcause, Except.isOk, Except.toBool])
        · rcases Except.seq_eq_error_iff.mp h with hinput | ⟨typed, _, h⟩
          · exact .of_checkExpr (hplaced ▸ List.mem_cons_of_mem _ List.mem_cons_self) hinput
          · rcases Except.seq_eq_error_iff.mp h with hstops | ⟨found, _, h⟩
            · have horder : Form.interpolate.objects (.stopOrder .interpolate) := Or.inl rfl
              refine stops_raises horder ?_ ?_ hstops
              · rw [hplaced]
                exact fun place hplace => List.mem_cons_of_mem _ (List.mem_cons_of_mem _ hplace)
              · rw [List.length_cons, List.length_cons] at heven
                omega
            · dsimp only at h
              split at h
              · exact absurd h Except.pure_ne_error
              · obtain rfl := Except.error.inj h
                exact .whole (fun _ => Or.inr ⟨_, rfl⟩)

/-! ## The table -/

/-- **Every operator raises the errors of its form.** -/
theorem operators_raise : List.Forall₂
    (fun operator form => operator.1 = form.1 ∧ Rule.Raises operator.2 form.2) operators forms := by
  simp only [operators, forms, List.forall₂_cons]
  exact ⟨
    ⟨trivial, literalRule_raises⟩,
    ⟨trivial, unaryRule_raises⟩,
    ⟨trivial, unaryRule_raises⟩,
    ⟨trivial, plainRule_raises⟩,
    ⟨trivial, plainRule_raises⟩,
    ⟨trivial, plainRule_raises⟩,
    ⟨trivial, plainRule_raises⟩,
    ⟨trivial, arithmeticRule_raises .add⟩,
    ⟨trivial, arithmeticRule_raises .multiply⟩,
    ⟨trivial, arithmeticRule_raises .subtract⟩,
    ⟨trivial, arithmeticRule_raises .divide⟩,
    ⟨trivial, arithmeticRule_raises .remainder⟩,
    ⟨trivial, arithmeticRule_raises .power⟩,
    ⟨trivial, equalityRule_raises .equal⟩,
    ⟨trivial, equalityRule_raises .notEqual⟩,
    ⟨trivial, orderRule_raises .less⟩,
    ⟨trivial, orderRule_raises .lessEqual⟩,
    ⟨trivial, orderRule_raises .greater⟩,
    ⟨trivial, orderRule_raises .greaterEqual⟩,
    ⟨trivial, unaryRule_raises⟩,
    ⟨trivial, logicRule_raises .all⟩,
    ⟨trivial, logicRule_raises .any⟩,
    ⟨trivial, caseRule_raises⟩,
    ⟨trivial, matchRule_raises⟩,
    ⟨trivial, coalesceRule_raises⟩,
    ⟨trivial, assertionRule_raises .number⟩,
    ⟨trivial, assertionRule_raises .string⟩,
    ⟨trivial, assertionRule_raises .boolean⟩,
    ⟨trivial, assertionRule_raises .object⟩,
    ⟨trivial, arrayRule_raises⟩,
    ⟨trivial, conversionRule_raises .number⟩,
    ⟨trivial, conversionRule_raises .color⟩,
    ⟨trivial, conversionRule_raises .string⟩,
    ⟨trivial, conversionRule_raises .boolean⟩,
    ⟨trivial, rgbaRule_raises 3⟩,
    ⟨trivial, rgbaRule_raises 4⟩,
    ⟨trivial, stepRule_raises⟩,
    ⟨trivial, interpolateRule_raises⟩,
    .nil⟩

/-- An operator with a form is known, and raises the errors of its form. -/
theorem exists_rule_of_form {name : String} {form : Form} (h : forms.lookup name = some form) :
    ∃ rule, rule? name = some rule ∧ Rule.Raises rule form := by
  have hrel := operators_raise.lookup name
  rw [h] at hrel
  cases hrule : operators.lookup name with
  | none =>
    rw [hrule] at hrel
    cases hrel
  | some rule =>
    rw [hrule] at hrel
    cases hrel with
    | some hraises => exact ⟨rule, hrule, hraises⟩

end Typing

/-! ## Grammatical expressions -/

theorem Json.map_json_operands (index : Nat) (args : List Json) :
    (operands index args).map (·.json) = args := by
  induction args generalizing index with
  | nil => rfl
  | cons json rest ih => rw [operands, List.map_cons, ih]

theorem Json.infer_of_mem_operands {index : Nat} {args : List Json} {o : Operand}
    (h : o ∈ operands index args) : o.infer = o.json.infer := by
  induction args generalizing index with
  | nil => contradiction
  | cons json rest ih =>
    rcases List.mem_cons.mp h with rfl | hrest
    · rfl
    · exact ih hrest

@[simp]
theorem CompileError.cause_inside (index : Nat) (e : CompileError) :
    (e.inside index).cause = e.cause := by
  unfold inside
  split <;> rfl

/-- What there can be to object to in an expression that is grammatical. -/
inductive Typing.Objection (names : List String) : CompileError.Cause → Prop
  | mismatch {wanted actual : ValueType} : Objection names (.typeMismatch wanted actual)
  | color {error : Color.ReadError} : Objection names (.color error)
  | operator {name : String} {form : Form} {cause : CompileError.Cause} (known : name ∈ names)
      (found : forms.lookup name = some form) (objects : form.objects cause) :
      Objection names cause

theorem Typing.Objection.of_constant {names : List String} {expected : Option ValueType}
    {value : Value} {e : CompileError} (h : Typed.constant expected value = .error e) :
    Objection names e.cause := by
  obtain ⟨error, rfl⟩ := Typed.constant_eq_error h
  exact .color

theorem Json.objection_of_infer_eq_error {names : List String} {json : Json}
    (h : Grammatical names json) : ∀ {expected : Option ValueType} {e : CompileError},
      json.infer expected = .error e → Objection names e.cause := by
  induction h with
  | null | bool | number | string => exact fun h => .of_constant h
  | @call name form args known found fits _ ih =>
    intro expected e h
    obtain ⟨rule, hrule, hraises⟩ := exists_rule_of_form found
    have happly : rule (operands 1 args) expected = .error e := by
      simpa [infer, apply, hrule] using h
    have hfits : form.Fits ((operands 1 args).map (·.json)) := by rwa [map_json_operands]
    cases hraises _ _ _ happly with
    | whole objects => exact .operator known found (objects hfits)
    | argument _ objects =>
      rw [CompileError.cause_inside]
      exact .operator known found (objects hfits)
    | unfit =>
      rw [CompileError.cause_inside]
      exact .mismatch
    | @inherited o expected e place refused =>
      rw [CompileError.cause_inside]
      have hplace : (Role.expression, o.json) ∈ form.placed args := by
        rw [← map_json_operands 1 args, Form.placed_map]
        exact List.mem_map_of_mem place
      rw [infer_of_mem_operands (Form.mem_of_mem_placed place)] at refused
      exact ih o.json hplace refused

/-- **What is grammatical is refused only for its types, its colors and what its operators object
to.** -/
theorem Json.objection_of_check_eq_error {names : List String} {json : Json}
    (h : Grammatical names json) {expected : Option ValueType} {e : CompileError}
    (he : json.check expected = .error e) : Objection names e.cause := by
  rcases Except.bind_eq_error_iff.mp he with hinfer | ⟨typed, _, hfit⟩
  · exact objection_of_infer_eq_error h hinfer
  · obtain ⟨wanted, actual, rfl⟩ := Typed.reconcile_eq_error hfit
    exact .mismatch

end Symbology
