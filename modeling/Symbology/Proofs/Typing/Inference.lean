import Symbology.Proofs.Typing.Branches
import Symbology.Proofs.Typing.Stops

set_option autoImplicit false

/-! # Inference finds derivations

Every rule of the table finds derivations, and so does the checker, by induction on the JSON value:
whatever it answers has one (`Json.infer_derives`, `Json.check_derives`). -/

namespace Symbology

namespace Typing

/-! ## The table -/

/-- **Every operator finds derivations.** -/
theorem operators_sound : ∀ entry ∈ operators, Rule.Sound entry.2 := by
  simp only [operators, List.forall_mem_cons]
  exact ⟨
    literalRule_sound,
    unaryRule_sound (fun _ _ h => .get h),
    unaryRule_sound (fun _ _ h => .has h),
    plainRule_sound (fun _ => .properties),
    plainRule_sound (fun _ => .id),
    plainRule_sound (fun _ => .geometryType),
    plainRule_sound (fun _ => .zoom),
    arithmeticRule_sound .add,
    arithmeticRule_sound .multiply,
    arithmeticRule_sound .subtract,
    arithmeticRule_sound .divide,
    arithmeticRule_sound .remainder,
    arithmeticRule_sound .power,
    equalityRule_sound (Or.inl rfl),
    equalityRule_sound (Or.inr rfl),
    orderRule_sound .less,
    orderRule_sound .lessEqual,
    orderRule_sound .greater,
    orderRule_sound .greaterEqual,
    unaryRule_sound (fun _ _ h => .not h),
    logicRule_sound (fun _ _ h => .all h),
    logicRule_sound (fun _ _ h => .any h),
    caseRule_sound,
    matchRule_sound,
    coalesceRule_sound,
    assertionRule_sound (by simp),
    assertionRule_sound (by simp),
    assertionRule_sound (by simp),
    assertionRule_sound (by simp),
    arrayRule_sound,
    conversionRule_sound .number,
    conversionRule_sound .color,
    conversionRule_sound .string,
    conversionRule_sound .boolean,
    rgbaRule_sound (Or.inl rfl),
    rgbaRule_sound (Or.inr rfl),
    stepRule_sound,
    interpolateRule_sound,
    fun _ h => absurd h List.not_mem_nil⟩

theorem rule?_sound {name : String} {rule : Rule} (h : rule? name = some rule) :
    Rule.Sound rule := by
  obtain ⟨before, after, htable, _⟩ := List.lookup_eq_some_iff.mp h
  refine operators_sound (name, rule) ?_
  rw [htable]
  exact List.mem_append_right before List.mem_cons_self

theorem apply_derives {head : Json} {args : List Operand} {expected : Option ValueType}
    {typed : Typed} (hargs : ∀ o ∈ args, o.Sound) (h : apply head args expected = .ok typed) :
    Derives .inferred expected typed := by
  unfold apply at h
  split at h
  · split at h
    next rule hrule => exact rule?_sound hrule args expected typed hargs h
    next => contradiction
  · contradiction

end Typing

open Typing

/-! ## The checker -/

namespace Json

mutual

/-- **Whatever is inferred has a derivation.** -/
theorem infer_derives : ∀ {json : Json} {expected : Option ValueType} {typed : Typed},
    json.infer expected = .ok typed → Derives .inferred expected typed
  | .array [], _, _, h => by contradiction
  | .array (_ :: args), _, _, h => apply_derives (operands_sound args) h
  | .object _, _, _, h => by contradiction
  | .null, _, _, h => constant_derives h
  | .bool _, _, _, h => constant_derives h
  | .number _, _, _, h => constant_derives h
  | .string _, _, _, h => constant_derives h

theorem operands_sound : ∀ (args : List Json) {index : Nat}, ∀ o ∈ operands index args, o.Sound
  | [], _, _, h => absurd h List.not_mem_nil
  | json :: rest, _, o, h => by
    rcases List.mem_cons.mp h with rfl | hrest
    · intro expected typed hinfer
      exact infer_derives hinfer
    · exact operands_sound rest o hrest

end

/-- **Whatever passes the check has a derivation that fits.** -/
theorem check_derives {json : Json} {expected : Option ValueType} {typed : Typed}
    (h : json.check expected = .ok typed) : Derives .fitted expected typed := by
  obtain ⟨inferred, hinfer, hfit⟩ := Except.bind_eq_ok_iff.mp h
  exact .fit (infer_derives hinfer) hfit

end Json

end Symbology
