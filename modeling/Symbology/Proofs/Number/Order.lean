import Mathlib
import Symbology.Json.Basic

set_option autoImplicit false

/-! # The order of floating-point numbers

Comparing floating-point numbers ignores the sign of zero and fails on "not a number". Away from
"not a number" it is a linear order: `position` sends a number to a triple of integers (which part
of the line it is on, then its exponent, then its mantissa), and `x < y` says that the triples
stand in lexicographic order (`lt_iff`, `le_iff`, `beq_iff`). What is true of every linear order can
be read off from there. Numbers of JSON values are always comparable
(`Json.Number.toFloat_isNaN`). -/

namespace Symbology.Number

open Float.Model (UnpackedFloat Format)
open Float.Model.UnpackedFloat (Sign)

/-! ## The place of a number on the line -/

/-- Where an unpacked number stands: the part of the line, and within it exponent and mantissa, both
mirrored on the negative side. -/
def unpackedPosition : UnpackedFloat → ℤ ×ₗ ℤ ×ₗ ℤ
  | .infinity .negative => toLex (-2, toLex (0, 0))
  | .finite .negative mantissa exponent _ => toLex (-1, toLex (-exponent, -(mantissa : ℤ)))
  | .zero _ | .notANumber => toLex (0, toLex (0, 0))
  | .finite .positive mantissa exponent _ => toLex (1, toLex (exponent, mantissa))
  | .infinity .positive => toLex (2, toLex (0, 0))

/-- Where a number stands; the two zeros stand at one place. -/
def position (x : Float) : ℤ ×ₗ ℤ ×ₗ ℤ :=
  unpackedPosition x.toModel.unpack

private theorem compare_sign (s t : Sign) :
    compare s t = match s, t with
      | .negative, .positive => .lt
      | .positive, .negative => .gt
      | _, _ => .eq := by
  cases s <;> cases t <;> rfl

theorem unpacked_lt_iff (a b : UnpackedFloat) :
    a.lt b = true ↔
      a.isNaN = false ∧ b.isNaN = false ∧ unpackedPosition a < unpackedPosition b := by
  rcases a with ⟨⟨⟩⟩ | _ | _ | ⟨⟨⟩, m, e, hm⟩ <;>
    rcases b with ⟨⟨⟩⟩ | _ | _ | ⟨⟨⟩, n, f, hn⟩ <;>
      simp [UnpackedFloat.lt, UnpackedFloat.compare, UnpackedFloat.isNaN, unpackedPosition,
        Prod.Lex.toLex_lt_toLex, Ordering.then_eq_lt, Ordering.then_eq_gt, Ordering.swap_eq_lt,
        compare_sign, compare_lt_iff_lt, compare_gt_iff_gt]

theorem unpacked_le_iff (a b : UnpackedFloat) :
    a.le b = true ↔
      a.isNaN = false ∧ b.isNaN = false ∧ unpackedPosition a ≤ unpackedPosition b := by
  rcases a with ⟨⟨⟩⟩ | _ | _ | ⟨⟨⟩, m, e, hm⟩ <;>
    rcases b with ⟨⟨⟩⟩ | _ | _ | ⟨⟨⟩, n, f, hn⟩ <;>
      simp [UnpackedFloat.le, UnpackedFloat.compare, UnpackedFloat.isNaN, unpackedPosition,
        Prod.Lex.toLex_le_toLex, Ordering.isLE_then_iff_or, Nat.isLE_compare,
        compare_sign, compare_lt_iff_lt]
  -- two negative finite numbers, the one case where the order is turned around
  rw [Ordering.isGE_iff_ne_lt, Ordering.then_eq_lt, compare_lt_iff_lt, compare_lt_iff_lt,
    compare_eq_iff_eq]
  omega

theorem unpacked_beq_iff (a b : UnpackedFloat) :
    a.beq b = true ↔
      a.isNaN = false ∧ b.isNaN = false ∧ unpackedPosition a = unpackedPosition b := by
  rcases a with ⟨⟨⟩⟩ | _ | _ | ⟨⟨⟩, m, e, hm⟩ <;>
    rcases b with ⟨⟨⟩⟩ | _ | _ | ⟨⟨⟩, n, f, hn⟩ <;>
      simp [UnpackedFloat.beq, UnpackedFloat.compare, UnpackedFloat.isNaN, unpackedPosition,
        compare_sign, Ordering.then_eq_eq]

/-! ## The order -/

/-- **Less than is the order of the places.** -/
theorem lt_iff (x y : Float) :
    x < y ↔ x.isNaN = false ∧ y.isNaN = false ∧ position x < position y :=
  decide_eq_true_iff.trans (unpacked_lt_iff x.toModel.unpack y.toModel.unpack)

/-- **Less than or equal is the order of the places.** -/
theorem le_iff (x y : Float) :
    x ≤ y ↔ x.isNaN = false ∧ y.isNaN = false ∧ position x ≤ position y :=
  decide_eq_true_iff.trans (unpacked_le_iff x.toModel.unpack y.toModel.unpack)

/-- **Numbers at one place compare equal.** -/
theorem beq_iff (x y : Float) :
    (x == y) = true ↔ x.isNaN = false ∧ y.isNaN = false ∧ position x = position y :=
  unpacked_beq_iff x.toModel.unpack y.toModel.unpack

theorem lt_trans {x y z : Float} (hxy : x < y) (hyz : y < z) : x < z := by
  rw [lt_iff] at hxy hyz ⊢
  obtain ⟨hx, _, hxy⟩ := hxy
  obtain ⟨_, hz, hyz⟩ := hyz
  exact ⟨hx, hz, hxy.trans hyz⟩

instance isTrans_lt : IsTrans Float (· < ·) :=
  ⟨fun _ _ _ => lt_trans⟩

/-- Of two comparable numbers one is below the other unless the other is at most the first. -/
theorem lt_of_not_le {x y : Float} (hx : x.isNaN = false) (hy : y.isNaN = false)
    (h : ¬y ≤ x) : x < y := by
  rw [lt_iff]
  refine ⟨hx, hy, ?_⟩
  rw [le_iff] at h
  exact not_le.mp (fun hle => h ⟨hy, hx, hle⟩)

theorem not_le_of_lt {x y : Float} (h : x < y) : ¬y ≤ x := by
  rw [lt_iff] at h
  rw [le_iff]
  exact fun hle => absurd hle.2.2 (not_le.mpr h.2.2)

theorem le_of_lt {x y : Float} (h : x < y) : x ≤ y := by
  rw [lt_iff] at h
  rw [le_iff]
  exact ⟨h.1, h.2.1, h.2.2.le⟩

theorem lt_of_lt_of_le {x y z : Float} (hxy : x < y) (hyz : y ≤ z) : x < z := by
  rw [lt_iff] at hxy ⊢
  rw [le_iff] at hyz
  exact ⟨hxy.1, hyz.2.1, hxy.2.2.trans_le hyz.2.2⟩

theorem lt_of_le_of_lt {x y z : Float} (hxy : x ≤ y) (hyz : y < z) : x < z := by
  rw [lt_iff] at hyz ⊢
  rw [le_iff] at hxy
  exact ⟨hxy.1, hyz.2.1, hxy.2.2.trans_lt hyz.2.2⟩

theorem le_of_beq {x y : Float} (h : (x == y) = true) : x ≤ y := by
  rw [beq_iff] at h
  rw [le_iff]
  exact ⟨h.1, h.2.1, h.2.2.le⟩

theorem beq_self_of_isNaN {x : Float} (h : x.isNaN = false) : (x == x) = true :=
  (beq_iff x x).mpr ⟨h, h, rfl⟩

/-! ## Numbers of JSON values are comparable -/

/-- Only a pattern with all bits of the exponent set and a mantissa is not a number. -/
theorem isNaN_unpack (spec : Format) (bits : BitVec spec.numBits)
    (h : UnpackedFloat.unpackExponent bits ≠ -1#_ ∨ UnpackedFloat.unpackMantissa bits = 0#_) :
    (UnpackedFloat.unpack spec bits).isNaN = false := by
  simp only [UnpackedFloat.unpack]
  by_cases hexponent : UnpackedFloat.unpackExponent bits = -1#_
  · have hmantissa := h.resolve_left (not_not_intro hexponent)
    rw [if_pos hexponent, if_pos hmantissa]
    rfl
  · rw [if_neg hexponent]
    split
    · split <;> rfl
    · rfl

/-- Packing does not make a number out of range "not a number". -/
theorem isNaN_unpack_pack (spec : Format) {f : UnpackedFloat} (h : f.isNaN = false) :
    (UnpackedFloat.unpack spec (UnpackedFloat.pack spec f)).isNaN = false := by
  apply isNaN_unpack
  fun_cases UnpackedFloat.pack spec f with
  | case1 => exact absurd h (by simp [UnpackedFloat.isNaN])
  | case2 s => right; simp [UnpackedFloat.packedInfinity]
  | case3 s => right; simp [UnpackedFloat.packedZero]
  | case4 s m e hm biased hlarge => right; simp [UnpackedFloat.packedInfinity]
  | case5 s m e hm bits biased hsmall hnormal =>
    -- a normal number: its exponent stays below the one that is kept for infinities
    left
    have hlt : biased < 2 ^ spec.exponentBits := by omega
    simp only [UnpackedFloat.unpackExponent_packComponents, BitVec.neg_one_eq_allOnes, ne_eq,
      ← BitVec.toNat_inj, BitVec.toNat_ofNat, BitVec.toNat_allOnes, Nat.mod_eq_of_lt hlt]
    omega
  | case6 s m e hm bits biased hsmall hnormal =>
    -- a subnormal number: its exponent is zero
    left
    simp [Nat.pos_iff_ne_zero.1 spec.he]

theorem isNaN_canonical (spec : Format) (sign : Sign) (mantissa : Nat) (exponent : Int) :
    (canonical spec sign mantissa exponent).isNaN = false := by
  unfold canonical
  split
  · rfl
  · split <;> rfl

theorem isNaN_ofRatio (sign : Sign) (numerator denominator : Nat) :
    (ofRatio sign numerator denominator).isNaN = false :=
  isNaN_unpack_pack .binary64 (isNaN_canonical ..)

theorem isNaN_ofInt (n : Int) : (ofInt n).isNaN = false := by
  cases n with
  | ofNat n => exact isNaN_ofRatio ..
  | negSucc n => exact isNaN_ofRatio ..

theorem isNaN_of_isFinite {x : Float} (h : x.isFinite = true) : x.isNaN = false := by
  change x.toModel.unpack.isFinite = true at h
  change x.toModel.unpack.isNaN = false
  cases hx : x.toModel.unpack <;> simp_all [UnpackedFloat.isFinite, UnpackedFloat.isNaN]

end Symbology.Number

namespace Symbology.Json.Number

/-- **A number of a JSON value is comparable**, even where it is out of range. -/
theorem toFloat_isNaN (n : Json.Number) : n.toFloat.isNaN = false := by
  cases n with
  | integer n => exact Symbology.Number.isNaN_ofInt n
  | float x finite => exact Symbology.Number.isNaN_of_isFinite finite

end Symbology.Json.Number
