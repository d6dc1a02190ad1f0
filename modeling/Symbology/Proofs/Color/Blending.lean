import Symbology.Proofs.Color.Channels
import Symbology.Proofs.Number.Nearest

set_option autoImplicit false

/-! # Blended colors

A blend of two colors takes three roundings for each channel. Even so, it does not leave the range
from 0 to 1 as long as the weight is there (`isReal_blend`): the difference of two channels may be
rounded up past the room that is left above the first one, but by so little that the sum is rounded
back to one. And with any other weight black and white leave it (`isReal_blend_iff`). -/

namespace Symbology.Color

open Number
open Float.Model (UnpackedFloat Format)

variable {t a b : Float32}

theorem isSingle_single (x : Float32) : IsSingle (single x) :=
  ⟨representable_value (isCanonical_unpack_single x).1, abs_single_le x⟩

/-- Fractions of `2 ^ 24` up to 1. -/
theorem isSingle_fraction {k : ℕ} (h : k ≤ 2 ^ 24) : IsSingle (k * 2 ^ (-24 : ℤ)) := by
  rcases h.lt_or_eq with hlt | rfl
  · have hnonneg : (0 : ℚ) ≤ k * 2 ^ (-24 : ℤ) := by positivity
    refine ⟨⟨k, -24, hlt, by decide, abs_of_nonneg hnonneg⟩, ?_⟩
    have hcast : (k : ℚ) ≤ 2 ^ 24 := by exact_mod_cast h
    have hone : (k : ℚ) * 2 ^ (-24 : ℤ) ≤ 1 := by
      norm_num
      linarith
    rw [abs_of_nonneg hnonneg, greatest_single]
    exact hone.trans (by norm_num)
  · have hone : ((2 ^ 24 : ℕ) : ℚ) * 2 ^ (-24 : ℤ) = 1 := by norm_num
    rw [hone]
    exact isSingle_one

/-- A number between 0 and 1 has a fraction of `2 ^ 24` just above it. -/
theorem exists_fraction {q : ℚ} (hlower : 0 ≤ q) (hupper : q ≤ 1) :
    ∃ k : ℕ, k ≤ 2 ^ 24 ∧ q ≤ k * 2 ^ (-24 : ℤ) ∧ k * 2 ^ (-24 : ℤ) < q + 2 ^ (-24 : ℤ) := by
  refine ⟨⌈q * 2 ^ 24⌉₊, Nat.ceil_le.mpr ?_, ?_, ?_⟩
  · push_cast
    linarith
  · have h := Nat.le_ceil (q * 2 ^ 24)
    norm_num at h ⊢
    linarith
  · have h := Nat.ceil_lt_add_one (mul_nonneg hlower (by norm_num : (0 : ℚ) ≤ 2 ^ 24))
    norm_num at h ⊢
    linarith

/-- **A blend of channels stays between 0 and 1** if its weight does. -/
theorem inUnit_blendChannel (ht : InUnit t) (ha : InUnit a) (hb : InUnit b) :
    InUnit (blendChannel t a b) := by
  obtain ⟨hfiniteT, hlowerT, hupperT⟩ := ht.between
  obtain ⟨hfiniteA, hlowerA, hupperA⟩ := ha.between
  obtain ⟨hfiniteB, hlowerB, hupperB⟩ := hb.between
  -- the room above the first channel, rounded up
  obtain ⟨k, hk, hroom, hstep⟩ := exists_fraction (q := 1 - single a) (by linarith) (by linarith)
  generalize hK : (k : ℚ) * 2 ^ (-24 : ℤ) = room at hroom hstep
  have hsingle : IsSingle room := hK ▸ isSingle_fraction hk
  have hbelow : IsSingle (-single a) := (isSingle_single a).neg
  have hdifference : Between (-single a) room (b - a) :=
    between_sub hbelow hsingle hfiniteB hfiniteA (by linarith) (by linarith)
  have hshare : Between (-single a) room ((b - a) * t) := by
    refine between_mul hbelow hsingle hdifference.finite hfiniteT ?_ ?_
    · nlinarith [mul_le_mul_of_nonneg_right hdifference.lower hlowerT]
    · nlinarith [mul_le_mul_of_nonneg_right hdifference.upper hlowerT]
  exact inUnit_of_between (between_add_one hfiniteA hshare.finite (by linarith [hshare.lower])
    (by linarith [hshare.upper]))

/-- **A blend of colors has its channels between 0 and 1** if they and the weight are there. -/
theorem isReal_blend {c d : Color} (ht : InUnit t) (hc : c.IsReal) (hd : d.IsReal) :
    (c.blend d t).IsReal where
  red := inUnit_blendChannel ht hc.red hd.red
  green := inUnit_blendChannel ht hc.green hd.green
  blue := inUnit_blendChannel ht hc.blue hd.blue
  alpha := inUnit_blendChannel ht hc.alpha hd.alpha

/-! ## Weights out of range -/

/-- From zero to one a blend is its weight. -/
theorem inUnit_of_blendChannel (h : InUnit (blendChannel t 0 1)) : InUnit t := by
  change InUnit (0 + 1 * t) at h
  have hfiniteProduct : (1 * t).isFinite = true :=
    (isFinite_of_unpacked_add (isFinite_of_unpack_pack h.between.finite)).2
  have hfinite : t.isFinite = true :=
    (isFinite_of_unpacked_mul (isFinite_of_unpack_pack hfiniteProduct)).2
  have hsingle := isSingle_single t
  have hproduct : Between (single t) (single t) (1 * t) :=
    between_mul hsingle hsingle rfl hfinite (by simp) (by simp)
  have hsum : Between (single t) (single t) (0 + 1 * t) :=
    between_add hsingle hsingle rfl hproduct.finite (by simpa using hproduct.lower)
      (by simpa using hproduct.upper)
  exact inUnit_of_between ⟨hfinite, h.between.lower.trans hsum.upper,
    hsum.lower.trans h.between.upper⟩

/-- Black in full opacity. -/
def black : Color := ⟨0, 0, 0, 1⟩

/-- White in full opacity. -/
def white : Color := ⟨1, 1, 1, 1⟩

theorem isReal_black : black.IsReal :=
  ⟨inUnit_zero, inUnit_zero, inUnit_zero, inUnit_one⟩

theorem isReal_white : white.IsReal :=
  ⟨inUnit_one, inUnit_one, inUnit_one, inUnit_one⟩

/-- **The weights that keep colors in the range** are those that are in it themselves. -/
theorem isReal_blend_iff :
    (∀ c d : Color, c.IsReal → d.IsReal → (c.blend d t).IsReal) ↔ InUnit t :=
  ⟨fun h => inUnit_of_blendChannel (h black white isReal_black isReal_white).red,
    fun ht _ _ => isReal_blend ht⟩

end Symbology.Color
