import Mathlib.Data.List.Basic
import Symbology.Text.Blank

set_option autoImplicit false

/-! # Texts that trimming and lower case leave alone -/

theorem Char.toLower_of_isDigit {c : Char} (h : c.isDigit = true) : c.toLower = c := by
  have hnine : c.toNat ≤ '9'.toNat := (Char.isDigit_iff_toNat.mp h).2
  have hletters : '9'.toNat < 'A'.toNat := by decide
  have hcapital : ¬(c.val ≥ 'A'.val ∧ c.val ≤ 'Z'.val) := by
    rintro ⟨hlower, -⟩
    have hlower : 'A'.toNat ≤ c.toNat := UInt32.le_iff_toNat_le.mp hlower
    omega
  exact dif_neg hcapital

namespace Symbology.Text

/-- A text without blanks at its ends stays as it is. -/
theorem trim_eq_self {text : List Char} (hfirst : ∀ c ∈ text.head?, isBlank c = false)
    (hlast : ∀ c ∈ text.getLast?, isBlank c = false) : trim text = text := by
  have hstart : ∀ {text : List Char}, (∀ c ∈ text.head?, isBlank c = false) →
      trimStart text = text := by
    intro text h
    cases text with
    | nil => rfl
    | cons c rest => simp [trimStart, h c rfl]
  rw [trim, hstart hfirst, hstart (by simpa using hlast), List.reverse_reverse]

end Symbology.Text
