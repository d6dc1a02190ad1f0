import Symbology.Proofs.Json.Reading

set_option autoImplicit false

/-! # What the canonical text tells apart

A change of a declaration is noticed by its canonical text. The text is read as the sorted value,
so two values share it exactly when they are deep-equal with the same numbers (`canonical_eq_iff`):
different values never share a text, whatever the order of their members
(`deepEqual_of_canonical_eq`). In the other direction the text is finer than the comparison of
values, because zero and negative zero compare equal and are written differently. They are all that
comes between values that compare equal (`canonical_eq_iff_not_oppositeZeros`). -/

namespace Symbology.Json

/-- **Two values share their canonical text exactly when they are deep-equal** with the same
numbers. -/
theorem canonical_eq_iff {a b : Json} (ha : a.WellFormed) (hb : b.WellFormed) :
    a.canonical = b.canonical ↔ a.DeepEqual (· = ·) b := by
  rw [← sorted_eq_iff ha hb]
  constructor
  · intro h
    have hread := read?_canonical ha
    rw [h, read?_canonical hb] at hread
    exact (Option.some.inj hread).symm
  · intro h
    rw [canonical, canonical, h]

/-- **Canonical texts never collide**: values with one text have one structure, the same strings and
the same numbers. -/
theorem deepEqual_of_canonical_eq {a b : Json} (ha : a.WellFormed) (hb : b.WellFormed)
    (h : a.canonical = b.canonical) : a.DeepEqual (· = ·) b :=
  (canonical_eq_iff ha hb).mp h

/-- Objects with their members in different orders. -/
theorem deepEqual_of_canonical_eq_swapped :
    (object [("b", .number (.integer 1)), ("a", .array [.string "x", .bool true])]).DeepEqual (· = ·)
      (.object [("a", .array [.string "x", .bool true]), ("b", .number (.integer 1))]) := by
  have hone : (number (.integer 1)).WellFormed := .number ⟨by decide, by decide⟩
  have hitems : (array [.string "x", .bool true]).WellFormed :=
    .array (by simp [WellFormed.string, WellFormed.bool])
  exact deepEqual_of_canonical_eq (.object (by decide) (by simp [hone, hitems]))
    (.object (by decide) (by simp [hone, hitems])) rfl

/-! ## Zeros with different signs -/

/-- One of the numbers is zero and the other one is negative zero. -/
def Number.OppositeZeros : Number → Number → Prop
  | .float x _, .float y _ => (x = 0 ∧ y = -0) ∨ (x = -0 ∧ y = 0)
  | _, _ => False

/-- Somewhere in the values zero stands in one and negative zero in the other at the same place. -/
inductive OppositeZeros : Json → Json → Prop
  | number {m n : Number} (h : m.OppositeZeros n) : OppositeZeros (.number m) (.number n)
  | item {as bs : List Json} {a b : Json} (hab : (a, b) ∈ as.zip bs) (h : OppositeZeros a b) :
      OppositeZeros (.array as) (.array bs)
  | member {as bs : List (String × Json)} {key : String} {a b : Json}
      (ha : as.lookup key = some a) (hb : bs.lookup key = some b) (h : OppositeZeros a b) :
      OppositeZeros (.object as) (.object bs)

theorem Number.not_oppositeZeros_self (n : Number) : ¬n.OppositeZeros n := by
  have hne : (0 : Float) ≠ -0 := by decide
  cases n with
  | integer n => exact id
  | float x hfinite =>
    rintro (⟨hzero, hnegative⟩ | ⟨hnegative, hzero⟩) <;> exact hne (hzero.symm.trans hnegative)

/-- Numbers that compare equal are the same, or zeros with different signs. -/
theorem Number.eq_or_oppositeZeros {m n : Number} (h : (m == n) = true) :
    m = n ∨ m.OppositeZeros n := by
  cases m with
  | integer x =>
    cases n with
    | integer y => exact Or.inl (congrArg integer (beq_iff_eq.mp h))
    | float y hy => contradiction
  | float x hx =>
    cases n with
    | integer y => contradiction
    | float y hy =>
      obtain ⟨_, _, heq | hzeros⟩ := Float.beq_iff_ne_nan_and_eq.mp h
      · subst heq
        exact Or.inl rfl
      · exact Or.inr hzeros

theorem DeepEqual.not_oppositeZeros {a b : Json} (h : a.DeepEqual (· = ·) b) :
    ¬a.OppositeZeros b := by
  intro hzeros
  induction hzeros with
  | @number m n hzeros =>
    cases h with
    | number heq =>
      subst heq
      exact Number.not_oppositeZeros_self m hzeros
  | item hab _ ih =>
    cases h with
    | array items => exact ih ((List.forall₂_iff_zip.mp items).2 hab)
  | @member as bs key a b ha hb _ ih =>
    cases h with
    | object members =>
      have hrel := members key
      rw [ha, hb] at hrel
      exact ih (Option.rel_some_some.mp hrel)

/-- Values that compare equal have the same numbers where no zeros differ in sign. -/
theorem DeepEqual.of_not_oppositeZeros {a b : Json} (ha : a.WellFormed)
    (h : a.DeepEqual (fun m n => (m == n) = true) b) (hzeros : ¬a.OppositeZeros b) :
    a.DeepEqual (· = ·) b := by
  induction ha generalizing b with
  | null | bool | string =>
    cases h
    constructor
  | number _ =>
    cases h with
    | number hbeq =>
      have heq := (Number.eq_or_oppositeZeros hbeq).resolve_right
        (fun hopposite => hzeros (.number hopposite))
      exact .number heq
  | array _ ih =>
    cases h with
    | array items =>
      obtain ⟨hlength, hitems⟩ := List.forall₂_iff_zip.mp items
      refine .array (List.forall₂_iff_zip.mpr ⟨hlength, fun {a b} hab => ?_⟩)
      exact ih a (List.of_mem_zip hab).1 (hitems hab)
        (fun hopposite => hzeros (.item hab hopposite))
  | object _ _ ih =>
    cases h with
    | object members =>
      refine .object (fun key => (members key).imp_of_mem (fun a ha b hb hab => ?_))
      exact ih (key, a) (Members.mem_of_lookup ha) hab
        (fun hopposite => hzeros (.member ha hb hopposite))

/-- **Of values that compare equal, only zeros with different signs change the canonical text.** -/
theorem canonical_eq_iff_not_oppositeZeros {a b : Json} (ha : a.WellFormed) (hb : b.WellFormed)
    (h : a.DeepEqual (fun m n => (m == n) = true) b) :
    a.canonical = b.canonical ↔ ¬a.OppositeZeros b :=
  (canonical_eq_iff ha hb).trans
    ⟨DeepEqual.not_oppositeZeros, DeepEqual.of_not_oppositeZeros ha h⟩

/-- Objects with zeros of different signs under one key have different texts. -/
theorem canonical_eq_iff_not_oppositeZeros_member :
    (object [("b", .number (.float (-0) rfl)), ("a", .number (.integer 1))]).canonical ≠
      (object [("a", .number (.integer 1)), ("b", .number (.float 0 rfl))]).canonical := by
  have hone : (number (.integer 1)).WellFormed := .number ⟨by decide, by decide⟩
  have hzero : (number (.float 0 rfl)).WellFormed := .number trivial
  have hnegative : (number (.float (-0) rfl)).WellFormed := .number trivial
  have ha : (object [("b", .number (.float (-0) rfl)), ("a", .number (.integer 1))]).WellFormed :=
    .object (by decide) (by simpa [hone] using hnegative)
  have hb : (object [("a", .number (.integer 1)), ("b", .number (.float 0 rfl))]).WellFormed :=
    .object (by decide) (by simpa [hone] using hzero)
  have hequal := (sorted_beq_iff ha hb).mp (by decide)
  have hzeros : (Number.float (-0) rfl).OppositeZeros (.float 0 rfl) := Or.inr ⟨rfl, rfl⟩
  intro h
  exact (canonical_eq_iff_not_oppositeZeros ha hb hequal).mp h
    (@OppositeZeros.member _ _ "b" _ _ rfl rfl (.number hzeros))

/-- Values that compare equal need not share their canonical text: zero and negative zero. -/
theorem not_canonical_eq_of_deepEqual :
    ¬∀ a b : Json, a.WellFormed → b.WellFormed → a.DeepEqual (fun m n => (m == n) = true) b →
      a.canonical = b.canonical := by
  intro h
  have htexts := h (.number (.float 0 rfl)) (.number (.float (-0) rfl)) (.number trivial)
    (.number trivial) (.number (by decide))
  have hne : (number (.float 0 rfl)).canonical ≠ (number (.float (-0) rfl)).canonical := by decide
  exact hne htexts

end Symbology.Json
