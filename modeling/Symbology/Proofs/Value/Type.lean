import Mathlib.Data.List.Basic
import Symbology.Expr.Outcome
import Symbology.Proofs.Except

set_option autoImplicit false

/-! # Types and the values they hold

`ValueType.accepts` is a preorder. `ValueType.Holds` says structurally which values belong to a
type; a value whose most exact type is accepted belongs to it (`holds_of_accepts`). Blending two
values leaves their type as it is (`Value.type_blend`). -/

namespace Symbology

namespace ValueType

/-! ## Acceptance -/

@[simp]
theorem accepts_refl (t : ValueType) : t.accepts t = true := by
  induction t with
  | array item length ih => simp [accepts, ih]
  | _ => rfl

@[simp]
theorem value_accepts (t : ValueType) : ValueType.value.accepts t = true := by
  simp [accepts]

theorem array_accepts_iff {item : ValueType} {length : Option Nat} {actual : ValueType} :
    (array item length).accepts actual = true ↔
      ∃ actualItem actualLength, actual = array actualItem actualLength ∧
        item.accepts actualItem = true ∧ (length = none ∨ length = actualLength) := by
  cases actual <;> simp [accepts]

/-- Only the type of any value accepts it. -/
theorem accepts_value_iff {t : ValueType} : t.accepts .value = true ↔ t = .value := by
  cases t <;> simp [accepts]

/-- Other than arrays and any value, a type accepts just itself. -/
theorem accepts_iff_eq {expected actual : ValueType} (hvalue : expected ≠ .value)
    (harray : ∀ item length, expected ≠ array item length) :
    expected.accepts actual = true ↔ expected = actual := by
  cases expected with
  | value => exact absurd rfl hvalue
  | array item length => exact absurd rfl (harray item length)
  | _ => simp [accepts]

/-- **Acceptance is transitive.** -/
theorem accepts_trans {a b c : ValueType} (hab : a.accepts b = true) (hbc : b.accepts c = true) :
    a.accepts c = true := by
  induction a generalizing b c with
  | value => exact value_accepts c
  | array item length ih =>
    obtain ⟨item', length', rfl, hitem, hlength⟩ := array_accepts_iff.mp hab
    obtain ⟨item'', length'', rfl, hitem', hlength'⟩ := array_accepts_iff.mp hbc
    refine array_accepts_iff.mpr ⟨item'', length'', rfl, ih hitem hitem', ?_⟩
    rcases hlength with rfl | rfl
    · exact Or.inl rfl
    · exact hlength'
  | _ =>
    obtain rfl := (accepts_iff_eq (by simp) (by simp)).mp hab
    exact hbc

/-! ## Values of a type -/

/-- The values that belong to a type. An array belongs to the type of an array if it has the length
that is asked for, if one is, and all its items belong to the type of the items. -/
def Holds : ValueType → Value → Prop
  | .null, v => v = .null
  | .number, v => ∃ x, v = .number x
  | .string, v => ∃ s, v = .string s
  | .boolean, v => ∃ b, v = .bool b
  | .color, v => ∃ c, v = .color c
  | .object, v => ∃ members, v = .object members
  | .value, _ => True
  | .array item length, v => ∃ items, v = .array items ∧
      (∀ n, length = some n → items.length = n) ∧ ∀ i ∈ items, item.Holds i

/-- What accepts the common type of some types accepts each of them. -/
theorem accepts_of_mem_common {t actual : ValueType} {types : List ValueType}
    (h : t.accepts (common types) = true) (hmem : actual ∈ types) : t.accepts actual = true := by
  cases types with
  | nil => exact absurd hmem List.not_mem_nil
  | cons first rest =>
    rw [common] at h
    split at h
    next hall =>
      rcases List.mem_cons.mp hmem with rfl | hrest
      · exact h
      · rw [beq_iff_eq.mp (List.all_eq_true.mp hall actual hrest)]
        exact h
    next =>
      -- the types differ, so the common type is that of any value
      rw [accepts_value_iff.mp h]
      exact value_accepts actual

end ValueType

namespace Value

theorem types_eq_map (items : List Value) : types items = items.map type := by
  induction items with
  | nil => rfl
  | cons item rest ih => rw [types, List.map_cons, ih]

theorem type_eq_null_iff {value : Value} : value.type = .null ↔ value = .null := by
  cases value <;> simp [type]

/-- No value is of the type of any value: its own type is more exact. -/
theorem type_ne_value (value : Value) : value.type ≠ .value := by
  cases value <;> simp [type]

end Value

/-- **A value whose type is accepted belongs to the type.** -/
theorem ValueType.holds_of_accepts {t : ValueType} {value : Value}
    (h : t.accepts value.type = true) : t.Holds value := by
  induction t generalizing value with
  | value => trivial
  | array item length ih =>
    obtain ⟨actualItem, actualLength, htype, hitem, hlength⟩ := array_accepts_iff.mp h
    cases value with
    | array items =>
      obtain ⟨rfl, rfl⟩ := ValueType.array.inj (by simpa only [Value.type] using htype)
      refine ⟨items, rfl, ?_, ?_⟩
      · rintro n rfl
        exact (Option.some.inj (hlength.resolve_left (Option.some_ne_none n))).symm
      · intro i hi
        refine ih (accepts_of_mem_common hitem ?_)
        rw [Value.types_eq_map]
        exact List.mem_map_of_mem hi
    | _ => exact absurd htype (by simp [Value.type])
  | _ => cases value <;> simp_all [accepts, Value.type, Holds]

/-! ## Blending -/

namespace Value

mutual

/-- **Blending keeps the type.** -/
theorem type_blend {t : Float} : ∀ {a b c : Value}, blend t a b = .ok c → c.type = a.type
  | .number _, b, c, h => by
    cases b with
    | number =>
      obtain rfl := Except.ok.inj (h : Except.ok _ = _)
      rfl
    | _ => contradiction
  | .color _, b, c, h => by
    cases b with
    | color =>
      obtain rfl := Except.ok.inj (h : Except.ok _ = _)
      rfl
    | _ => contradiction
  | .array as, b, c, h => by
    cases b with
    | array bs =>
      rw [blend] at h
      split at h
      next hlength =>
        obtain ⟨items, hitems, rfl⟩ := Except.map_eq_ok_iff.mp h
        -- equal types of the items make equal lengths and an equal common type
        have htypes := types_blendItems hlength hitems
        have hsame : items.length = as.length := by
          simpa [types_eq_map] using congrArg List.length htypes
        simp only [type, htypes, hsame]
      next => contradiction
    | _ => contradiction
  | .null, _, _, h | .bool _, _, _, h | .string _, _, _, h | .object _, _, _, h => by
    simp [blend] at h

theorem types_blendItems {t : Float} : ∀ {as bs cs : List Value}, as.length = bs.length →
    blendItems t as bs = .ok cs → types cs = types as
  | [], [], cs, _, h => by
    obtain rfl := Except.ok.inj (h : Except.ok _ = _)
    rfl
  | a :: as, b :: bs, cs, hlength, h => by
    rw [blendItems] at h
    split at h
    · contradiction
    · next c hc =>
      obtain ⟨rest, hrest, rfl⟩ := Except.map_eq_ok_iff.mp h
      have hlength' : as.length = bs.length := Nat.succ.inj hlength
      rw [types, types, type_blend hc, types_blendItems hlength' hrest]

end

end Value

end Symbology
