import Symbology.Number.Exact
import Symbology.Proofs.Number.Operations

set_option autoImplicit false

/-! # Single-precision numbers and what is none

"Not a number" goes through every operation, and comes up anew only where infinities meet each
other or zero. What is a number has a place in the order, and is brought into a range by clamping
(`clamp_mem`); what is none stays as it is (`clamp_of_isNaN`). -/

namespace Symbology.Number

open Float.Model (UnpackedFloat Format)
open Float.Model.UnpackedFloat (Sign)

variable {x y low high : Float32}

/-! ## Not a number -/

theorem isNaN_ofModel_pack (u : UnpackedFloat) :
    (Float32.ofModel (Float32.Model.pack u)).isNaN = u.isNaN := by
  cases u with
  | notANumber => rfl
  | _ => exact isNaN_unpack_pack .binary32 rfl

theorem unpack_of_isNaN (h : x.isNaN = true) : x.toModel.unpack = .notANumber := by
  change x.toModel.unpack.isNaN = true at h
  cases hx : x.toModel.unpack <;> simp_all [UnpackedFloat.isNaN]

theorem isNaN_unpacked_of_isFinite {u : UnpackedFloat} (h : u.isFinite = true) :
    u.isNaN = false := by
  cases u <;> first | rfl | contradiction

theorem isNaN_single_of_isFinite (h : x.isFinite = true) : x.isNaN = false :=
  isNaN_unpacked_of_isFinite h

section Operations

variable (x y : Float32)

theorem isNaN_add : (x + y).isNaN =
    (UnpackedFloat.add .binary32 x.toModel.unpack y.toModel.unpack).isNaN :=
  isNaN_ofModel_pack _

theorem isNaN_sub : (x - y).isNaN =
    (UnpackedFloat.sub .binary32 x.toModel.unpack y.toModel.unpack).isNaN :=
  isNaN_ofModel_pack _

theorem isNaN_mul : (x * y).isNaN =
    (UnpackedFloat.mul .binary32 x.toModel.unpack y.toModel.unpack).isNaN :=
  isNaN_ofModel_pack _

theorem isNaN_div : (x / y).isNaN =
    (UnpackedFloat.div .binary32 x.toModel.unpack y.toModel.unpack).isNaN :=
  isNaN_ofModel_pack _

end Operations

/-! ### What is not a number stays so -/

section NotANumber

variable (h : x.isNaN = true) (y : Float32)

include h

theorem isNaN_add_left : (x + y).isNaN = true := by
  rw [isNaN_add, unpack_of_isNaN h]
  rfl

theorem isNaN_add_right : (y + x).isNaN = true := by
  rw [isNaN_add, unpack_of_isNaN h]
  cases y.toModel.unpack <;> rfl

theorem isNaN_sub_left : (x - y).isNaN = true := by
  rw [isNaN_sub, unpack_of_isNaN h]
  rfl

theorem isNaN_sub_right : (y - x).isNaN = true := by
  rw [isNaN_sub, unpack_of_isNaN h]
  cases y.toModel.unpack <;> rfl

theorem isNaN_mul_left : (x * y).isNaN = true := by
  rw [isNaN_mul, unpack_of_isNaN h]
  rfl

theorem isNaN_mul_right : (y * x).isNaN = true := by
  rw [isNaN_mul, unpack_of_isNaN h]
  cases y.toModel.unpack <;> rfl

theorem isNaN_abs : x.abs.isNaN = true := by
  change (Float32.ofModel (Float32.Model.pack (UnpackedFloat.abs x.toModel.unpack))).isNaN = true
  rw [isNaN_ofModel_pack, unpack_of_isNaN h]
  rfl

end NotANumber

/-! ### What is a number stays so -/

theorem isNaN_roundWithAccuracy (spec : Format) (sign : Sign) (mantissa : ℕ) (exponent : ℤ)
    (accuracy : UnpackedFloat.Accuracy) :
    (UnpackedFloat.roundWithAccuracy spec sign mantissa exponent accuracy).isNaN = false := by
  unfold UnpackedFloat.roundWithAccuracy
  dsimp only
  split <;> rfl

theorem isNaN_normalize (spec : Format) (mantissa exponent : ℤ) (zeroSign : Sign) :
    (UnpackedFloat.normalize spec mantissa exponent zeroSign).isNaN = false :=
  isNaN_unpacked_of_isFinite (rounds_normalize ..).finite

/-- The number is finite and not zero. -/
def IsNonzero (x : Float32) : Prop :=
  ∃ sign mantissa exponent hpos, x.toModel.unpack = .finite sign mantissa exponent hpos

theorem isNaN_mul_of_isNonzero (hy : IsNonzero y) : (x * y).isNaN = x.isNaN := by
  obtain ⟨s, m, e, hpos, hy⟩ := hy
  change _ = x.toModel.unpack.isNaN
  rw [isNaN_mul, hy]
  cases x.toModel.unpack with
  | finite => exact isNaN_roundWithAccuracy ..
  | _ => rfl

theorem isNaN_div_of_isNonzero (hy : IsNonzero y) : (x / y).isNaN = x.isNaN := by
  obtain ⟨s, m, e, hpos, hy⟩ := hy
  change _ = x.toModel.unpack.isNaN
  rw [isNaN_div, hy]
  cases x.toModel.unpack with
  | finite => exact isNaN_roundWithAccuracy ..
  | _ => rfl

theorem isNaN_ofScientific (spec : Format) (mantissa : ℕ) (exponent : ℤ) :
    (UnpackedFloat.ofScientific spec mantissa exponent).isNaN = false := by
  unfold UnpackedFloat.ofScientific
  split
  · rfl
  · split
    · rfl
    · split
      · rfl
      · split <;> exact isNaN_roundWithAccuracy ..

theorem isNaN_ofNat (n : ℕ) : (Float32.ofNat n).isNaN = false := by
  change (Float32.ofScientific n false 0).isNaN = false
  unfold Float32.ofScientific
  split
  · have hone : IsNonzero (1e0 : Float32) := ⟨_, _, _, _, rfl⟩
    refine (isNaN_mul_of_isNonzero hone).trans ?_
    exact (isNaN_ofModel_pack _).trans (isNaN_normalize ..)
  · exact (isNaN_ofModel_pack _).trans (isNaN_ofScientific ..)

/-- The sum of finite numbers may be infinite, but it is a number. -/
theorem isNaN_add_of_isFinite (hx : x.isFinite = true) (hy : y.isFinite = true) :
    (x + y).isNaN = false := by
  rw [isNaN_add]
  have hspec : 2 ≤ Format.binary32.exponentBits := by decide
  exact isNaN_unpacked_of_isFinite
    (rounds_add (isCanonical_unpack hspec _).1 (isCanonical_unpack hspec _).1 hx hy).finite

theorem isNaN_singleOfBinary (sign : Sign) (mantissa : ℕ) (exponent : ℤ) :
    (singleOfBinary sign mantissa exponent).isNaN = false :=
  isNaN_unpack_pack .binary32 (isNaN_canonical ..)

theorem isNaN_roundHalfAway (x : Float32) : (roundHalfAway x).isNaN = x.isNaN := by
  unfold roundHalfAway
  split
  next hx =>
    have hfinite : x.isNaN = false := by
      change x.toModel.unpack.isNaN = false
      rw [hx]
      rfl
    rw [hfinite, isNaN_singleOfBinary]
  · rfl

/-! ## The order -/

/-- Where a number stands; the two zeros stand at one place. -/
def singlePosition (x : Float32) : ℤ ×ₗ ℤ ×ₗ ℤ :=
  unpackedPosition x.toModel.unpack

theorem single_lt_iff (x y : Float32) :
    x < y ↔ x.isNaN = false ∧ y.isNaN = false ∧ singlePosition x < singlePosition y :=
  decide_eq_true_iff.trans (unpacked_lt_iff x.toModel.unpack y.toModel.unpack)

theorem single_le_iff (x y : Float32) :
    x ≤ y ↔ x.isNaN = false ∧ y.isNaN = false ∧ singlePosition x ≤ singlePosition y :=
  decide_eq_true_iff.trans (unpacked_le_iff x.toModel.unpack y.toModel.unpack)

theorem not_single_le_of_isNaN (h : y.isNaN = true) (x : Float32) : ¬x ≤ y := by
  rw [single_le_iff, h]
  simp

/-- **A number that is brought into a range is in the range.** -/
theorem clamp_mem (h : low ≤ high) (hx : x.isNaN = false) :
    low ≤ clamp low high x ∧ clamp low high x ≤ high := by
  have hself (z : Float32) (hz : z.isNaN = false) : z ≤ z := (single_le_iff z z).mpr ⟨hz, hz, le_rfl⟩
  obtain ⟨hlow, hhigh, hposition⟩ := (single_le_iff low high).mp h
  unfold clamp
  split
  · exact ⟨hself low hlow, h⟩
  next hnlt =>
    split
    · exact ⟨h, hself high hhigh⟩
    next hnlt' =>
      rw [single_lt_iff] at hnlt hnlt'
      exact ⟨(single_le_iff ..).mpr ⟨hlow, hx, not_lt.mp (fun hlt => hnlt ⟨hx, hlow, hlt⟩)⟩,
        (single_le_iff ..).mpr ⟨hx, hhigh, not_lt.mp (fun hlt => hnlt' ⟨hhigh, hx, hlt⟩)⟩⟩

/-- What is in the range already stays as it is, down to the sign of a zero. -/
theorem clamp_eq_self (hlow : low ≤ x) (hhigh : x ≤ high) : clamp low high x = x := by
  have hlow' : ¬x < low := fun hlt =>
    absurd ((single_lt_iff ..).mp hlt).2.2 (not_lt.mpr ((single_le_iff ..).mp hlow).2.2)
  have hhigh' : ¬high < x := fun hlt =>
    absurd ((single_lt_iff ..).mp hlt).2.2 (not_lt.mpr ((single_le_iff ..).mp hhigh).2.2)
  rw [clamp, if_neg hlow', if_neg hhigh']

theorem clamp_of_isNaN (h : x.isNaN = true) (low high : Float32) : clamp low high x = x := by
  have hlow : ¬x < low := by rw [single_lt_iff, h]; simp
  have hhigh : ¬high < x := by rw [single_lt_iff, h]; simp
  rw [clamp, if_neg hlow, if_neg hhigh]

end Symbology.Number
