import Symbology.Proofs.PropertyExpression
import Symbology.Proofs.Value.Type

set_option autoImplicit false

/-! # Values that pass the check of a type

A value is checked by its most exact type, which tells a single type for all items of an array. So
a value passes if it belongs to the type and its own type tells enough about it
(`ValueType.accepts_type_iff`): where the items of an array have to be of a type, there have to be
some, and they have to be of one type. The empty array is an array of numbers that does not pass
(`ValueType.not_accepts_of_holds`). -/

namespace Symbology.ValueType

/-- The items of an array have one most exact type, wherever the type asks for more than any
items. -/
def Uniform : ValueType → Value → Prop
  | .array item _, v => item = .value ∨ ∃ items, v = .array items ∧
      (∃ shared, items ≠ [] ∧ ∀ i ∈ items, i.type = shared) ∧ ∀ i ∈ items, item.Uniform i
  | _, _ => True

/-- The common type of some types is one of any value unless they are all the same. -/
theorem common_eq_iff {types : List ValueType} {shared : ValueType} (h : shared ≠ .value) :
    common types = shared ↔ types ≠ [] ∧ ∀ t ∈ types, t = shared := by
  cases types with
  | nil => simp [common, h.symm]
  | cons first rest =>
    rw [common, List.forall_mem_cons]
    split
    next hall =>
      have hrest : ∀ t ∈ rest, t = first := fun t ht => beq_iff_eq.mp (List.all_eq_true.mp hall t ht)
      refine ⟨fun hfirst => ⟨List.cons_ne_nil _ _, hfirst, fun t ht => ?_⟩, fun hsame => hsame.2.1⟩
      rw [hrest t ht, hfirst]
    next hall =>
      refine iff_of_false h.symm ?_
      rintro ⟨_, rfl, hrest⟩
      exact hall (List.all_eq_true.mpr (fun t ht => beq_iff_eq.mpr (hrest t ht)))

/-- The type that an array tells for its items. -/
theorem accepts_common_iff {item : ValueType} {items : List Value} (h : item ≠ .value) :
    item.accepts (common (Value.types items)) = true ↔
      ∃ shared, (items ≠ [] ∧ ∀ i ∈ items, i.type = shared) ∧ item.accepts shared = true := by
  have hcommon {shared : ValueType} (hshared : shared ≠ .value) :
      common (Value.types items) = shared ↔ items ≠ [] ∧ ∀ i ∈ items, i.type = shared := by
    rw [common_eq_iff hshared, Value.types_eq_map, List.forall_mem_map, Ne, List.map_eq_nil_iff]
  have hne {shared : ValueType} (haccepts : item.accepts shared = true) : shared ≠ .value := by
    rintro rfl
    exact h (accepts_value_iff.mp haccepts)
  constructor
  · exact fun haccepts => ⟨_, (hcommon (hne haccepts)).mp rfl, haccepts⟩
  · rintro ⟨shared, hsame, haccepts⟩
    rwa [(hcommon (hne haccepts)).mpr hsame]

theorem uniform_of_accepts {t : ValueType} {v : Value} (h : t.accepts v.type = true) :
    t.Uniform v := by
  induction t generalizing v with
  | array item length ih =>
    obtain ⟨actualItem, actualLength, htype, hitem, _⟩ := array_accepts_iff.mp h
    cases v with
    | array items =>
      obtain ⟨rfl, _⟩ := ValueType.array.inj (by simpa only [Value.type] using htype)
      by_cases hvalue : item = .value
      · exact Or.inl hvalue
      · obtain ⟨shared, hshared, haccepts⟩ := (accepts_common_iff hvalue).mp hitem
        refine Or.inr ⟨items, rfl, ⟨shared, hshared⟩, fun i hi => ih ?_⟩
        rwa [hshared.2 i hi]
    | _ => exact absurd htype (by simp [Value.type])
  | _ => trivial

theorem accepts_of_uniform {t : ValueType} {v : Value} (hholds : t.Holds v)
    (huniform : t.Uniform v) : t.accepts v.type = true := by
  induction t generalizing v with
  | value => exact value_accepts _
  | array item length ih =>
    obtain ⟨items, rfl, hlength, hitems⟩ := hholds
    refine array_accepts_iff.mpr ⟨_, _, rfl, ?_, ?_⟩
    · rcases huniform with rfl | ⟨_, heq, ⟨shared, hne, hshared⟩, huniform⟩
      · exact value_accepts _
      · obtain rfl := Value.array.inj heq
        by_cases hvalue : item = .value
        · exact hvalue ▸ value_accepts _
        · obtain ⟨first, rest, rfl⟩ := List.exists_cons_of_ne_nil hne
          have hfirst : first ∈ first :: rest := List.mem_cons_self
          refine (accepts_common_iff hvalue).mpr ⟨shared, ⟨hne, hshared⟩, ?_⟩
          rw [← hshared first hfirst]
          exact ih (hitems first hfirst) (huniform first hfirst)
    · cases length with
      | none => exact Or.inl rfl
      | some n => exact Or.inr (congrArg some (hlength n rfl)).symm
  | null =>
    obtain rfl : v = .null := hholds
    rfl
  | number | string | boolean | color | object =>
    obtain ⟨_, rfl⟩ := hholds
    rfl

/-- **Which values pass the check of a type.** A value is accepted, an assertion of the type lets it
pass, and it can be a default of the type, exactly when it belongs to the type and is uniform. -/
theorem accepts_type_iff (t : ValueType) (v : Value) :
    (t.accepts v.type = true ↔ t.Holds v ∧ t.Uniform v) ∧
      (Outcome.assertion t .null [.ok v] = .ok v ↔ t.Holds v ∧ t.Uniform v) ∧
        ∀ json, PropertyExpression.defaultValue t json = .ok v ↔
          json.Denotes t v ∧ t.Holds v ∧ t.Uniform v := by
  have haccepts : t.accepts v.type = true ↔ t.Holds v ∧ t.Uniform v :=
    ⟨fun h => ⟨holds_of_accepts h, uniform_of_accepts h⟩, fun h => accepts_of_uniform h.1 h.2⟩
  refine ⟨haccepts, ?_, fun json => ?_⟩
  · rw [← haccepts]
    simp only [Outcome.assertion, Except.bind]
    split
    next h => exact iff_of_true rfl h
    next h => exact iff_of_false nofun h
  · rw [PropertyExpression.defaultValue_eq_ok_iff, haccepts]

/-- So not every value of a type passes its check: the empty array is refused as an array of
numbers. -/
theorem not_accepts_of_holds :
    ¬∀ (t : ValueType) (v : Value), t.Holds v → t.accepts v.type = true := by
  intro h
  have hholds : (array .number none).Holds (.array []) :=
    ⟨[], rfl, nofun, fun _ hi => absurd hi List.not_mem_nil⟩
  exact absurd (h _ _ hholds) (by decide)

end Symbology.ValueType
