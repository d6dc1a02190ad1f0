import Symbology.Proofs.Value.Type
import Symbology.Typing.Operand

set_option autoImplicit false

/-! # Constants

A JSON value that is taken as data, and not as an expression, stands for a value. Where a color is
wanted, text is the text of one; in all other cases the value is the JSON value itself. -/

namespace Symbology

/-- Where a value of the type is wanted, the JSON value stands for the value. -/
inductive Json.Denotes (type : ValueType) : Json → Value → Prop
  | color {text : String} {color : Color} (wanted : type = .color)
      (read : Color.read text = .ok color) : Denotes type (.string text) (.color color)
  | data {json : Json} (plain : type = .color → json.string? = none) :
      Denotes type json (.ofJson json)

variable {type : ValueType} {json : Json} {value : Value}

theorem Json.denotes_null : Json.null.Denotes type .null :=
  .data (fun _ => rfl)

/-- Only `null` stands for `null`. -/
theorem Json.Denotes.eq_null_iff (h : json.Denotes type value) : value = .null ↔ json = .null := by
  cases h with
  | color => simp
  | data => cases json <;> simp [Value.ofJson]

/-- **The checker takes a constant for what it stands for.** -/
theorem Typed.constantValue_eq_ok_iff :
    constantValue (some type) (.ofJson json) = .ok value ↔ json.Denotes type value := by
  by_cases htext : type = .color ∧ ∃ text, json = .string text
  · obtain ⟨rfl, text, rfl⟩ := htext
    constructor
    · intro h
      simp only [constantValue, Value.ofJson] at h
      split at h
      next color hcolor =>
        obtain rfl := Except.ok.inj h
        exact .color rfl hcolor
      next => contradiction
    · intro h
      cases h with
      | color _ hcolor => simp [constantValue, Value.ofJson, hcolor]
      | data plain => exact absurd (plain rfl) (by simp [Json.string?])
  · have hplain : constantValue (some type) (.ofJson json) = .ok (.ofJson json) := by
      cases json with
      | string text =>
        have hcolor : type ≠ .color := fun htype => htext ⟨htype, text, rfl⟩
        cases type <;> first | rfl | exact absurd rfl hcolor
      | _ => cases type <;> rfl
    rw [hplain, Except.ok.injEq]
    constructor
    · rintro rfl
      refine .data (fun htype => ?_)
      cases json with
      | string text => exact absurd ⟨htype, text, rfl⟩ htext
      | _ => rfl
    · intro h
      cases h with
      | color htype _ => exact absurd ⟨htype, _, rfl⟩ htext
      | data => rfl

end Symbology
