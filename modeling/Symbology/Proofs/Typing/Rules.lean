import Symbology.Proofs.Typing.Derivation

set_option autoImplicit false

/-! # Rules find derivations

Whatever the rule of an operator answers has a derivation, provided that whatever its arguments are
inferred to be has one (`Rule.Sound`). Here are the rules whose arguments are all checked alike;
branches and stops have modules of their own. -/

namespace Symbology

open Typing

/-! ## Arguments -/

namespace Operand

/-- Whatever an argument is inferred to be has a derivation. -/
def Sound (o : Operand) : Prop :=
  ∀ (expected : Option ValueType) (typed : Typed),
    o.infer expected = .ok typed → Derives .inferred expected typed

variable {o : Operand} {args : List Operand} {expected : Option ValueType}

theorem located_eq_ok_iff {α : Type} {answer : Checked α} {a : α} :
    o.located answer = .ok a ↔ answer = .ok a :=
  Except.mapError_eq_ok_iff

theorem Sound.inferred (ho : o.Sound) {typed : Typed} (h : o.inferred expected = .ok typed) :
    Derives .inferred expected typed :=
  ho expected typed (located_eq_ok_iff.mp h)

theorem Sound.check (ho : o.Sound) {typed : Typed} (h : o.check expected = .ok typed) :
    Derives .fitted expected typed := by
  obtain ⟨inferred, hinfer, hfit⟩ := Except.bind_eq_ok_iff.mp (located_eq_ok_iff.mp h)
  exact .fit (ho expected inferred hinfer) hfit

theorem Sound.checkExpr (ho : o.Sound) {expr : Expr} (h : o.checkExpr expected = .ok expr) :
    ∃ typed, Derives .fitted expected typed ∧ typed.expr = expr := by
  obtain ⟨typed, hcheck, rfl⟩ := Except.map_eq_ok_iff.mp h
  exact ⟨typed, ho.check hcheck, rfl⟩

/-- The expressions of all arguments are those of derivations. -/
theorem Sound.checkAll (hargs : ∀ o ∈ args, o.Sound) {exprs : List Expr}
    (h : checkAll args expected = .ok exprs) :
    ∃ typeds : List Typed, typeds.length = args.length ∧ typeds.map Typed.expr = exprs ∧
      ∀ typed ∈ typeds, Derives .fitted expected typed := by
  rw [Operand.checkAll, Except.mapM_eq_ok_iff] at h
  induction h with
  | nil => exact ⟨[], rfl, rfl, fun _ hmem => absurd hmem List.not_mem_nil⟩
  | @cons o expr rest exprs hexpr _ ih =>
    obtain ⟨ho, hrest⟩ := List.forall_mem_cons.mp hargs
    obtain ⟨typed, htyped, rfl⟩ := ho.checkExpr hexpr
    obtain ⟨typeds, hlength, rfl, htypeds⟩ := ih hrest
    refine ⟨typed :: typeds, congrArg (· + 1) hlength, rfl, ?_⟩
    exact List.forall_mem_cons.mpr ⟨htyped, htypeds⟩

end Operand

namespace Typing

/-! ## Rules -/

/-- Whatever the rule answers has a derivation. -/
def Rule.Sound (rule : Rule) : Prop :=
  ∀ (args : List Operand) (expected : Option ValueType) (typed : Typed),
    (∀ o ∈ args, o.Sound) → rule args expected = .ok typed → Derives .inferred expected typed

theorem expectCount_eq_ok_iff {count : Nat} {args : List Operand} :
    expectCount count args = .ok () ↔ args.length = count := by
  unfold expectCount
  split
  next h => simp [h]
  next h => simp [h, Checked.fail]

theorem expectAtLeast_eq_ok_iff {least : Nat} {args : List Operand} :
    expectAtLeast least args = .ok () ↔ least ≤ args.length := by
  unfold expectAtLeast
  split
  next h => simp [Checked.fail, h]
  next h => simp [Nat.le_of_not_lt h]

theorem expectOperands_eq_ok_iff {operation : Arithmetic} {args : List Operand} :
    expectOperands operation args = .ok () ↔ OperandCount operation args.length := by
  cases operation with
  | subtract =>
    simp only [expectOperands, OperandCount]
    split
    next h => simp [h]
    next h => simp [expectCount_eq_ok_iff, h]
  | _ => simp only [expectOperands, OperandCount, expectAtLeast_eq_ok_iff, expectCount_eq_ok_iff]

theorem expectConvertible_eq_ok_iff {target : Conversion} {args : List Operand} :
    expectConvertible target args = .ok () ↔ ConvertibleCount target args.length := by
  cases target <;>
    simp only [expectConvertible, ConvertibleCount, expectAtLeast_eq_ok_iff, expectCount_eq_ok_iff]

theorem constant_derives {expected : Option ValueType} {written : Value} {typed : Typed}
    (h : Typed.constant expected written = .ok typed) : Derives .inferred expected typed := by
  obtain ⟨value, hvalue, rfl⟩ := Except.map_eq_ok_iff.mp h
  exact .constant hvalue

theorem literalRule_sound : Rule.Sound literalRule := by
  intro args expected typed _ h
  unfold literalRule at h
  split at h
  · exact constant_derives h
  · contradiction

theorem plainRule_sound {expr : Expr} {type : ValueType}
    (hrule : ∀ expected, Derives .inferred expected ⟨expr, type⟩) :
    Rule.Sound (plainRule expr type) := by
  intro args expected typed _ h
  simp only [plainRule, Except.seq_eq_ok_iff, Except.pure_eq_ok_iff] at h
  obtain ⟨_, _, rfl⟩ := h
  exact hrule expected

theorem unaryRule_sound {argument type : ValueType} {build : Expr → Expr}
    (hrule : ∀ expected arg, Derives .fitted (some argument) arg →
      Derives .inferred expected ⟨build arg.expr, type⟩) :
    Rule.Sound (unaryRule argument build type) := by
  intro args expected typed hargs h
  unfold unaryRule at h
  split at h
  next arg =>
    simp only [Except.seq_eq_ok_iff, Except.pure_eq_ok_iff] at h
    obtain ⟨expr, hexpr, rfl⟩ := h
    obtain ⟨harg, _⟩ := List.forall_mem_cons.mp hargs
    obtain ⟨arg', harg', rfl⟩ := harg.checkExpr hexpr
    exact hrule expected arg' harg'
  next => contradiction

theorem arithmeticRule_sound (operation : Arithmetic) : Rule.Sound (arithmeticRule operation) := by
  intro args expected typed hargs h
  simp only [arithmeticRule, Except.seq_eq_ok_iff, Except.pure_eq_ok_iff] at h
  obtain ⟨_, hcount, exprs, hexprs, rfl⟩ := h
  obtain ⟨typeds, hlength, rfl, htypeds⟩ := Operand.Sound.checkAll hargs hexprs
  exact .arithmetic (hlength ▸ expectOperands_eq_ok_iff.mp hcount) htypeds

theorem logicRule_sound {build : List Expr → Expr}
    (hrule : ∀ expected (args : List Typed), (∀ arg ∈ args, Derives .fitted (some .boolean) arg) →
      Derives .inferred expected ⟨build (args.map Typed.expr), .boolean⟩) :
    Rule.Sound (logicRule build) := by
  intro args expected typed hargs h
  simp only [logicRule, Except.seq_eq_ok_iff, Except.pure_eq_ok_iff] at h
  obtain ⟨exprs, hexprs, rfl⟩ := h
  obtain ⟨typeds, _, rfl, htypeds⟩ := Operand.Sound.checkAll hargs hexprs
  exact hrule expected typeds htypeds

theorem equalityRule_sound {relation : Comparison}
    (hrelation : relation = .equal ∨ relation = .notEqual) :
    Rule.Sound (equalityRule relation) := by
  intro args expected typed hargs h
  unfold equalityRule at h
  split at h
  next left right =>
    obtain ⟨hl, hargs⟩ := List.forall_mem_cons.mp hargs
    obtain ⟨hr, _⟩ := List.forall_mem_cons.mp hargs
    simp only [Except.seq_eq_ok_iff] at h
    obtain ⟨l, hleft, r, hright, h⟩ := h
    split at h
    next hequal =>
      obtain rfl := Except.pure_eq_ok_iff.mp h
      exact .equality hrelation (hl.check hleft) (hr.check hright) hequal
    next => contradiction
  next => contradiction

theorem orderRule_sound (order : Ordered) : Rule.Sound (orderRule order) := by
  intro args expected typed hargs h
  unfold orderRule at h
  split at h
  next left right =>
    obtain ⟨hl, hargs⟩ := List.forall_mem_cons.mp hargs
    obtain ⟨hr, _⟩ := List.forall_mem_cons.mp hargs
    simp only [Except.seq_eq_ok_iff, Except.pure_eq_ok_iff, Operand.located_eq_ok_iff,
      Except.mapError_eq_ok_iff] at h
    obtain ⟨l, hleft, wanted, hordered, r, hright, rfl⟩ := h
    obtain ⟨r', hr', rfl⟩ := hr.checkExpr hright
    exact .order (hl.check hleft) hordered hr'
  next => contradiction

theorem assertionRule_sound {target : ValueType} (htarget : target ≠ .value) :
    Rule.Sound (assertionRule target) := by
  intro args expected typed hargs h
  simp only [assertionRule, Except.seq_eq_ok_iff, Except.pure_eq_ok_iff] at h
  obtain ⟨_, hcount, exprs, hexprs, rfl⟩ := h
  obtain ⟨typeds, hlength, rfl, htypeds⟩ := Operand.Sound.checkAll hargs hexprs
  have hpos : 0 < typeds.length := hlength ▸ expectAtLeast_eq_ok_iff.mp hcount
  exact .assertion htarget (List.ne_nil_of_length_pos hpos) htypeds

theorem assertArray_derives {item : ValueType} {length : Option Nat} {value : Operand}
    {expected : Option ValueType} {typed : Typed} (hvalue : value.Sound)
    (h : assertArray item length value = .ok typed) : Derives .inferred expected typed := by
  simp only [assertArray, Except.seq_eq_ok_iff, Except.pure_eq_ok_iff] at h
  obtain ⟨expr, hexpr, rfl⟩ := h
  obtain ⟨arg, harg, rfl⟩ := hvalue.checkExpr hexpr
  exact .assertion (by simp) (List.cons_ne_nil arg []) (List.forall_mem_singleton.mpr harg)

theorem arrayRule_sound : Rule.Sound arrayRule := by
  intro args expected typed hargs h
  unfold arrayRule at h
  -- only the value is an expression: item type and length are read off the JSON
  split at h
  · exact assertArray_derives (hargs _ (by simp)) h
  · simp only [Except.seq_eq_ok_iff] at h
    obtain ⟨item, _, h⟩ := h
    exact assertArray_derives (hargs _ (by simp)) h
  · simp only [Except.seq_eq_ok_iff] at h
    obtain ⟨item, _, length, _, h⟩ := h
    exact assertArray_derives (hargs _ (by simp)) h
  · contradiction

theorem conversionRule_sound (target : Conversion) : Rule.Sound (conversionRule target) := by
  intro args expected typed hargs h
  simp only [conversionRule, Except.seq_eq_ok_iff, Except.pure_eq_ok_iff] at h
  obtain ⟨_, hcount, exprs, hexprs, rfl⟩ := h
  obtain ⟨typeds, hlength, rfl, htypeds⟩ := Operand.Sound.checkAll hargs hexprs
  exact .conversion (hlength ▸ expectConvertible_eq_ok_iff.mp hcount) htypeds

theorem rgbaRule_sound {count : Nat} (hcount : count = 3 ∨ count = 4) :
    Rule.Sound (rgbaRule count) := by
  intro args expected typed hargs h
  simp only [rgbaRule, Except.seq_eq_ok_iff, Except.pure_eq_ok_iff] at h
  obtain ⟨_, hexpected, exprs, hexprs, rfl⟩ := h
  obtain ⟨typeds, hlength, rfl, htypeds⟩ := Operand.Sound.checkAll hargs hexprs
  rw [← expectCount_eq_ok_iff.mp hexpected, ← hlength] at hcount
  exact .rgba hcount htypeds

end Typing

end Symbology
