import Symbology.Color.Reader
import Symbology.Proofs.Number.Bounds

set_option autoImplicit false

/-! # Channels between 0 and 1

Clamping brings every number into the range (`inUnit_clamp_iff`), and so does the step from a byte
to a channel, so that a color in hexadecimal digits is in the range whatever its digits are
(`isReal_ofHex?`). -/

namespace Symbology.Color

open Number
open Float.Model (UnpackedFloat Format)

/-! ## Channels -/

/-- The channel is a number between 0 and 1. -/
structure InUnit (channel : Float32) : Prop where
  number : channel.isNaN = false
  lower : 0 ≤ channel
  upper : channel ≤ 1

/-- All channels are numbers between 0 and 1. -/
structure IsReal (color : Color) : Prop where
  red : InUnit color.red
  green : InUnit color.green
  blue : InUnit color.blue
  alpha : InUnit color.alpha

theorem isReal_iff {color : Color} :
    color.IsReal ↔
      (InUnit color.red ∧ InUnit color.green ∧ InUnit color.blue) ∧ InUnit color.alpha :=
  ⟨fun ⟨red, green, blue, alpha⟩ => ⟨⟨red, green, blue⟩, alpha⟩,
    fun ⟨⟨red, green, blue⟩, alpha⟩ => ⟨red, green, blue, alpha⟩⟩

theorem inUnit_zero : InUnit 0 :=
  ⟨rfl, by decide, by decide⟩

theorem inUnit_one : InUnit 1 :=
  ⟨rfl, by decide, by decide⟩

theorem not_inUnit_of_isNaN {x : Float32} (h : x.isNaN = true) : ¬InUnit x :=
  fun hx => absurd (hx.number.symm.trans h) (by decide)

theorem inUnit_of_between {x : Float32} (h : Between 0 1 x) : InUnit x := by
  refine ⟨isNaN_single_of_isFinite h.finite, (le_iff_single rfl h.finite).mpr ?_,
    (le_iff_single h.finite rfl).mpr ?_⟩
  · rw [single_zero]
    exact h.lower
  · rw [single_one]
    exact h.upper

theorem InUnit.between {x : Float32} (h : InUnit x) : Between 0 1 x := by
  have hbetween := between_of_le rfl rfl h.lower h.upper
  rwa [single_zero, single_one] at hbetween

/-- What is brought between 0 and 1 is in the range, if it is a number at all. -/
theorem inUnit_clamp_iff {x : Float32} : InUnit (clamp 0 1 x) ↔ x.isNaN = false := by
  cases hx : x.isNaN with
  | true =>
    rw [clamp_of_isNaN hx]
    exact iff_of_false (not_inUnit_of_isNaN hx) (by simp)
  | false =>
    obtain ⟨hlower, hupper⟩ := clamp_mem (by decide : (0 : Float32) ≤ 1) hx
    have hnumber := ((single_le_iff _ _).mp hupper).1
    exact iff_of_true ⟨hnumber, hlower, hupper⟩ rfl

/-! ## Bytes -/

/-- The channels of all bytes, one by one. -/
theorem inUnit_channelOfByte {n : ℕ} (h : n < 0x100) : InUnit (channelOfByte n) := by
  have hrange : ∀ n < 0x100, (channelOfByte n).isNaN = false ∧ 0 ≤ channelOfByte n ∧
      channelOfByte n ≤ 1 := by decide +kernel
  obtain ⟨hnumber, hlower, hupper⟩ := hrange n h
  exact ⟨hnumber, hlower, hupper⟩

theorem isReal_ofRgb (rgb : ℕ) {alpha : Float32} (h : alpha.isNaN = false) :
    (ofRgb rgb alpha).IsReal where
  red := inUnit_channelOfByte (Nat.mod_lt _ (by decide))
  green := inUnit_channelOfByte (Nat.mod_lt _ (by decide))
  blue := inUnit_channelOfByte (Nat.mod_lt _ (by decide))
  alpha := inUnit_clamp_iff.mpr h

theorem isNonzero_255 : IsNonzero 255 :=
  ⟨_, _, _, _, rfl⟩

theorem isReal_ofHex? {text : List Char} {color : Color} (h : ofHex? text = some color) :
    color.IsReal := by
  obtain ⟨digits, _, hcolor⟩ := Option.bind_eq_some_iff.mp h
  have halpha (n : ℕ) : (Float32.ofNat n / 255).isNaN = false := by
    rw [isNaN_div_of_isNonzero isNonzero_255, isNaN_ofNat]
  dsimp only at hcolor
  split at hcolor
  all_goals first | contradiction | obtain rfl := Option.some.inj hcolor
  all_goals exact isReal_ofRgb _ (halpha _)

end Symbology.Color
