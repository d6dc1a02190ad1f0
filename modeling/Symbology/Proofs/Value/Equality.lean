import Mathlib
import Symbology.Proofs.Number.Order
import Symbology.Value.Basic

set_option autoImplicit false

/-! # Comparing values

The comparison of JSON values is an equivalence. At run time it is one only where no part of a value
is "not a number", but it is always symmetric and transitive. JSON values that compare equal are
equal at run time (`Value.ofJson_beq`). The converse fails for numbers: what is compared at run time
is the floating-point number, and one may be written as an integer or with a point. -/

namespace Symbology

/-! ## JSON values -/

namespace Json

instance : EquivBEq Number where
  rfl {n} := by
    cases n with
    | integer n => exact beq_self_eq_true n
    | float x hfinite =>
      have hnan : x ≠ Float.nan := by
        rintro rfl
        contradiction
      exact Float.beq_iff_ne_nan_and_eq.mpr ⟨hnan, hnan, Or.inl rfl⟩
  symm {m n} h := by
    cases m <;> cases n
    case integer.integer => exact BEq.symm (α := Int) h
    case float.float => exact BEq.symm (α := Float) h
    all_goals contradiction
  trans {l m n} hlm hmn := by
    cases l <;> cases m <;> cases n
    case integer.integer.integer => exact BEq.trans (α := Int) hlm hmn
    case float.float.float => exact BEq.trans (α := Float) hlm hmn
    all_goals contradiction

mutual

theorem beq_refl (a : Json) : beq a a = true := by
  cases a with
  | null => rfl
  | bool b => exact beq_self_eq_true b
  | number n => exact BEq.rfl (a := n)
  | string s => exact beq_self_eq_true s
  | array items => exact beqItems_refl items
  | object members => exact beqMembers_refl members

theorem beqItems_refl : ∀ as : List Json, beqItems as as = true
  | [] => rfl
  | a :: as => by rw [beqItems, beq_refl a, beqItems_refl as, Bool.and_self]

theorem beqMembers_refl : ∀ as : List (String × Json), beqMembers as as = true
  | [] => rfl
  | (k, a) :: as => by simp [beqMembers, beq_refl a, beqMembers_refl as]

end

mutual

theorem beq_symm {a b : Json} (h : beq a b = true) : beq b a = true := by
  cases a <;> cases b
  case null.null => rfl
  case bool.bool => exact BEq.symm (α := Bool) h
  case number.number => exact BEq.symm (α := Number) h
  case string.string => exact BEq.symm (α := String) h
  case array.array => exact beqItems_symm h
  case object.object => exact beqMembers_symm h
  all_goals contradiction

theorem beqItems_symm : ∀ {as bs : List Json}, beqItems as bs = true → beqItems bs as = true
  | [], [], _ => rfl
  | a :: as, b :: bs, h => by
    rw [beqItems, Bool.and_eq_true] at h ⊢
    exact ⟨beq_symm h.1, beqItems_symm h.2⟩

theorem beqMembers_symm : ∀ {as bs : List (String × Json)},
    beqMembers as bs = true → beqMembers bs as = true
  | [], [], _ => rfl
  | (k, a) :: as, (l, b) :: bs, h => by
    rw [beqMembers, Bool.and_eq_true, Bool.and_eq_true] at h ⊢
    exact ⟨BEq.symm h.1, beq_symm h.2.1, beqMembers_symm h.2.2⟩

end

mutual

theorem beq_trans {a b c : Json} (hab : beq a b = true) (hbc : beq b c = true) :
    beq a c = true := by
  cases a <;> cases b <;> first | contradiction | skip
  all_goals cases c <;> first | contradiction | skip
  case null.null.null => rfl
  case bool.bool.bool => exact BEq.trans (α := Bool) hab hbc
  case number.number.number => exact BEq.trans (α := Number) hab hbc
  case string.string.string => exact BEq.trans (α := String) hab hbc
  case array.array.array => exact beqItems_trans hab hbc
  case object.object.object => exact beqMembers_trans hab hbc

theorem beqItems_trans : ∀ {as bs cs : List Json},
    beqItems as bs = true → beqItems bs cs = true → beqItems as cs = true
  | [], [], [], _, _ => rfl
  | a :: as, b :: bs, c :: cs, hab, hbc => by
    rw [beqItems, Bool.and_eq_true] at hab hbc ⊢
    exact ⟨beq_trans hab.1 hbc.1, beqItems_trans hab.2 hbc.2⟩

theorem beqMembers_trans : ∀ {as bs cs : List (String × Json)},
    beqMembers as bs = true → beqMembers bs cs = true → beqMembers as cs = true
  | [], [], [], _, _ => rfl
  | (k, a) :: as, (l, b) :: bs, (m, c) :: cs, hab, hbc => by
    rw [beqMembers, Bool.and_eq_true, Bool.and_eq_true] at hab hbc ⊢
    exact ⟨BEq.trans hab.1 hbc.1, beq_trans hab.2.1 hbc.2.1, beqMembers_trans hab.2.2 hbc.2.2⟩

end

/-- **The comparison of JSON values is an equivalence.** -/
instance : EquivBEq Json where
  rfl := beq_refl _
  symm := beq_symm
  trans := beq_trans

end Json

/-! ## Values at run time -/

theorem Color.beq_iff {a b : Color} :
    (a == b) = true ↔ (a.red == b.red) = true ∧ (a.green == b.green) = true ∧
      (a.blue == b.blue) = true ∧ (a.alpha == b.alpha) = true := by
  change Color.beq a b = true ↔ _
  simp only [Color.beq, Bool.and_eq_true, and_assoc]

instance : PartialEquivBEq Color where
  symm h := by
    rw [Color.beq_iff] at h ⊢
    exact ⟨BEq.symm h.1, BEq.symm h.2.1, BEq.symm h.2.2.1, BEq.symm h.2.2.2⟩
  trans hab hbc := by
    rw [Color.beq_iff] at hab hbc ⊢
    exact ⟨BEq.trans hab.1 hbc.1, BEq.trans hab.2.1 hbc.2.1, BEq.trans hab.2.2.1 hbc.2.2.1,
      BEq.trans hab.2.2.2 hbc.2.2.2⟩

namespace Value

mutual

theorem beq_symm {a b : Value} (h : beq a b = true) : beq b a = true := by
  cases a <;> cases b
  case null.null => rfl
  case bool.bool => exact BEq.symm (α := Bool) h
  case number.number => exact BEq.symm (α := Float) h
  case string.string => exact BEq.symm (α := String) h
  case color.color => exact BEq.symm (α := Color) h
  case array.array => exact beqItems_symm h
  case object.object => exact beqMembers_symm h
  all_goals contradiction

theorem beqItems_symm : ∀ {as bs : List Value}, beqItems as bs = true → beqItems bs as = true
  | [], [], _ => rfl
  | a :: as, b :: bs, h => by
    rw [beqItems, Bool.and_eq_true] at h ⊢
    exact ⟨beq_symm h.1, beqItems_symm h.2⟩

theorem beqMembers_symm : ∀ {as bs : List (String × Value)},
    beqMembers as bs = true → beqMembers bs as = true
  | [], [], _ => rfl
  | (k, a) :: as, (l, b) :: bs, h => by
    rw [beqMembers, Bool.and_eq_true, Bool.and_eq_true] at h ⊢
    exact ⟨BEq.symm h.1, beq_symm h.2.1, beqMembers_symm h.2.2⟩

end

mutual

theorem beq_trans {a b c : Value} (hab : beq a b = true) (hbc : beq b c = true) :
    beq a c = true := by
  cases a <;> cases b <;> first | contradiction | skip
  all_goals cases c <;> first | contradiction | skip
  case null.null.null => rfl
  case bool.bool.bool => exact BEq.trans (α := Bool) hab hbc
  case number.number.number => exact BEq.trans (α := Float) hab hbc
  case string.string.string => exact BEq.trans (α := String) hab hbc
  case color.color.color => exact BEq.trans (α := Color) hab hbc
  case array.array.array => exact beqItems_trans hab hbc
  case object.object.object => exact beqMembers_trans hab hbc

theorem beqItems_trans : ∀ {as bs cs : List Value},
    beqItems as bs = true → beqItems bs cs = true → beqItems as cs = true
  | [], [], [], _, _ => rfl
  | a :: as, b :: bs, c :: cs, hab, hbc => by
    rw [beqItems, Bool.and_eq_true] at hab hbc ⊢
    exact ⟨beq_trans hab.1 hbc.1, beqItems_trans hab.2 hbc.2⟩

theorem beqMembers_trans : ∀ {as bs cs : List (String × Value)},
    beqMembers as bs = true → beqMembers bs cs = true → beqMembers as cs = true
  | [], [], [], _, _ => rfl
  | (k, a) :: as, (l, b) :: bs, (m, c) :: cs, hab, hbc => by
    rw [beqMembers, Bool.and_eq_true, Bool.and_eq_true] at hab hbc ⊢
    exact ⟨BEq.trans hab.1 hbc.1, beq_trans hab.2.1 hbc.2.1, beqMembers_trans hab.2.2 hbc.2.2⟩

end

/-- **The comparison at run time is symmetric and transitive.** -/
instance : PartialEquivBEq Value where
  symm := beq_symm
  trans := beq_trans

/-! ## From JSON values to values at run time -/

theorem toFloat_beq {m n : Json.Number} (h : (m == n) = true) :
    (m.toFloat == n.toFloat) = true := by
  cases m <;> cases n
  case integer.integer x y =>
    obtain rfl : x = y := beq_iff_eq.mp h
    have hnan : (Json.Number.integer x).toFloat ≠ Float.nan := by
      intro hnan
      have hcomparable := (Json.Number.integer x).toFloat_isNaN
      rw [hnan] at hcomparable
      contradiction
    exact Float.beq_iff_ne_nan_and_eq.mpr ⟨hnan, hnan, Or.inl rfl⟩
  case float.float => exact h
  all_goals contradiction

mutual

/-- **JSON values that compare equal are equal at run time.** -/
theorem ofJson_beq {a b : Json} (h : Json.beq a b = true) : beq (ofJson a) (ofJson b) = true := by
  cases a <;> cases b
  case null.null => rfl
  case bool.bool => exact h
  case number.number => exact toFloat_beq h
  case string.string => exact h
  case array.array => exact ofJsonItems_beq h
  case object.object => exact ofJsonMembers_beq h
  all_goals contradiction

theorem ofJsonItems_beq : ∀ {as bs : List Json}, Json.beqItems as bs = true →
    beqItems (ofJsonItems as) (ofJsonItems bs) = true
  | [], [], _ => rfl
  | a :: as, b :: bs, h => by
    rw [Json.beqItems, Bool.and_eq_true] at h
    rw [ofJsonItems, ofJsonItems, beqItems, Bool.and_eq_true]
    exact ⟨ofJson_beq h.1, ofJsonItems_beq h.2⟩

theorem ofJsonMembers_beq : ∀ {as bs : List (String × Json)}, Json.beqMembers as bs = true →
    beqMembers (ofJsonMembers as) (ofJsonMembers bs) = true
  | [], [], _ => rfl
  | (k, a) :: as, (l, b) :: bs, h => by
    rw [Json.beqMembers, Bool.and_eq_true, Bool.and_eq_true] at h
    rw [ofJsonMembers, ofJsonMembers, beqMembers, Bool.and_eq_true, Bool.and_eq_true]
    exact ⟨h.1, ofJson_beq h.2.1, ofJsonMembers_beq h.2.2⟩

end

end Value

end Symbology
