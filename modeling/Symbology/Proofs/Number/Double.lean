import Symbology.Proofs.Number.Bounds

set_option autoImplicit false

/-! # Double-precision numbers

What an operation yields is packed, and comes back as it was unless it is too great, when it comes
back as an infinity (`unpack_packed_cases`). Finite numbers have a value (`double`) and are ordered
by it, and a result lies between two numbers of the format if the exact result does
(`BetweenDoubles`). -/

namespace Symbology.Number

open Float.Model (UnpackedFloat Format)
open Float.Model.UnpackedFloat (Sign)

variable {x y : Float} {lo hi q r : ℚ}

/-! ## Packed results -/

/-- What is packed comes back, or is too great and comes back as an infinity. -/
theorem unpack_pack_cases {spec : Format} (hspec : 2 ≤ spec.exponentBits) {u : UnpackedFloat}
    (hcanonical : IsCanonical spec u) :
    UnpackedFloat.unpack spec (UnpackedFloat.pack spec u) = u ∨
      (∃ sign mantissa exponent hpos, u = .finite sign mantissa exponent hpos) ∧
        ∃ sign, UnpackedFloat.unpack spec (UnpackedFloat.pack spec u) = .infinity sign := by
  by_cases hrange : InRange spec u
  · cases hnan : u.isNaN with
    | false => exact Or.inl (unpack_pack hspec hcanonical hrange hnan)
    | true =>
      obtain rfl := UnpackedFloat.isNaN_iff.mp hnan
      exact Or.inl UnpackedFloat.unpack_packedNaN
  · cases u with
    | finite sign mantissa exponent hpos =>
      refine Or.inr ⟨⟨_, _, _, _, rfl⟩, sign, ?_⟩
      have hgreat : (2 : ℤ) ^ (spec.exponentBits - 1) < exponent + spec.mantissaBits :=
        not_le.mp hrange
      have hbias := exponentBias_eq spec
      have hbits := mantissaBits_eq spec
      have hhalf := two_mul_half spec
      have hcast : ((2 ^ (spec.exponentBits - 1) : ℕ) : ℤ) = 2 ^ (spec.exponentBits - 1) := by
        push_cast
        rfl
      have hlarge : 2 ^ spec.exponentBits ≤
          (exponent + spec.exponentBias + spec.mantissaBitsWithoutImplicit).toNat + 1 := by omega
      rw [UnpackedFloat.pack]
      simp only [if_pos hlarge]
      exact unpack_packedInfinity spec sign
    | _ => exact absurd trivial hrange

/-- The number that is packed. -/
def packed (u : UnpackedFloat) : Float :=
  .ofModel (Float.Model.pack u)

theorem unpack_packed_cases {u : UnpackedFloat} (hcanonical : IsCanonical .binary64 u) :
    (packed u).toModel.unpack = u ∨
      (∃ sign mantissa exponent hpos, u = .finite sign mantissa exponent hpos) ∧
        ∃ sign, (packed u).toModel.unpack = .infinity sign :=
  unpack_pack_cases (by decide) hcanonical

theorem packed_unpack (x : Float) : packed x.toModel.unpack = x :=
  Float.ofBits_toBits x

theorem isNaN_packed (u : UnpackedFloat) : (packed u).isNaN = u.isNaN := by
  cases u with
  | notANumber => rfl
  | _ => exact isNaN_unpack_pack .binary64 rfl

theorem isFinite_of_packed {u : UnpackedFloat} (h : (packed u).isFinite = true) :
    u.isFinite = true :=
  isFinite_of_unpack_pack h

/-! ## Values -/

/-- The value of a finite number. -/
def double (x : Float) : ℚ :=
  value x.toModel.unpack

theorem isCanonical_unpack_double (x : Float) :
    IsCanonical .binary64 x.toModel.unpack ∧ InRange .binary64 x.toModel.unpack :=
  isCanonical_unpack (by decide) _

/-- **Finite numbers are ordered by their values.** -/
theorem le_iff_double (hx : x.isFinite = true) (hy : y.isFinite = true) :
    x ≤ y ↔ double x ≤ double y := by
  have hposition := position_le_iff_value (isCanonical_unpack_double x).1
    (isCanonical_unpack_double y).1 hx hy
  rw [le_iff]
  exact ⟨fun h => hposition.mp h.2.2,
    fun h => ⟨isNaN_of_isFinite hx, isNaN_of_isFinite hy, hposition.mpr h⟩⟩

theorem lt_iff_double (hx : x.isFinite = true) (hy : y.isFinite = true) :
    x < y ↔ double x < double y := by
  rw [← not_le, ← le_iff_double hy hx]
  exact ⟨not_le_of_lt, lt_of_not_le (isNaN_of_isFinite hx) (isNaN_of_isFinite hy)⟩

/-- Finite numbers of one value compare equal. -/
theorem beq_of_double_eq (hx : x.isFinite = true) (hy : y.isFinite = true)
    (h : double x = double y) : (x == y) = true := by
  have hle := (le_iff x y).mp ((le_iff_double hx hy).mpr h.le)
  have hge := (le_iff y x).mp ((le_iff_double hy hx).mpr h.ge)
  exact (beq_iff x y).mpr ⟨hle.1, hge.1, le_antisymm hle.2.2 hge.2.2⟩

@[simp] theorem double_zero : double 0 = 0 :=
  rfl

@[simp] theorem double_one : double 1 = 1 := by
  have hunpack : (1 : Float).toModel.unpack =
      .finite .positive 0x10000000000000 (-52) (by decide) := rfl
  rw [double, hunpack, value_finite]
  norm_num [signed]

@[simp] theorem double_three : double 3.0 = 3 := by
  have hunpack : (3.0 : Float).toModel.unpack =
      .finite .positive 0x18000000000000 (-51) (by decide) := rfl
  rw [double, hunpack, value_finite]
  norm_num [signed]

/-- A finite result has the value that was packed. -/
theorem double_packed {u : UnpackedFloat} (hcanonical : IsCanonical .binary64 u)
    (hfinite : (packed u).isFinite = true) : double (packed u) = value u := by
  rcases unpack_packed_cases hcanonical with hsame | ⟨_, sign, hinfinite⟩
  · rw [double, hsame]
  · change (packed u).toModel.unpack.isFinite = true at hfinite
    rw [hinfinite] at hfinite
    contradiction

/-! ## Results between two bounds -/

/-- The fraction is the value of a number. -/
structure IsDouble (r : ℚ) : Prop where
  representable : Representable .binary64 r
  abs_le : |r| ≤ greatest .binary64

theorem isDouble_double (x : Float) : IsDouble (double x) :=
  ⟨representable_value (isCanonical_unpack_double x).1,
    abs_value_le_greatest (isCanonical_unpack_double x).1 (isCanonical_unpack_double x).2⟩

theorem isDouble_natCast {n : ℕ} (h : n < 2 ^ 53) : IsDouble n := by
  have habs : |(n : ℚ)| = n := abs_of_nonneg (Nat.cast_nonneg n)
  refine ⟨⟨n, 0, h, by decide, by rw [habs, zpow_zero, mul_one]⟩, ?_⟩
  have hcast : (n : ℚ) ≤ (2 ^ 53 - 1 : ℕ) := Nat.cast_le.mpr (by omega)
  rw [habs]
  exact hcast.trans (le_mul_of_one_le_right (Nat.cast_nonneg _)
    (one_le_zpow₀ one_le_two (by decide)))

theorem IsDouble.neg (h : IsDouble r) : IsDouble (-r) :=
  ⟨h.representable.neg, by rw [abs_neg]; exact h.abs_le⟩

/-- The number is finite, and its value lies between the bounds. -/
structure BetweenDoubles (lo hi : ℚ) (x : Float) : Prop where
  finite : x.isFinite = true
  lower : lo ≤ double x
  upper : double x ≤ hi

/-- A packed rounding of a fraction between two numbers of the format. -/
theorem betweenDoubles_of_rounds {u : UnpackedFloat} (h : Rounds .binary64 q u) (hlo : IsDouble lo)
    (hhi : IsDouble hi) (hlower : lo ≤ q) (hupper : q ≤ hi) : BetweenDoubles lo hi (packed u) := by
  have hq : |q| ≤ greatest .binary64 :=
    abs_le.mpr ⟨(abs_le.mp hlo.abs_le).1.trans hlower, hupper.trans (abs_le.mp hhi.abs_le).2⟩
  have hunpack : (packed u).toModel.unpack = u := h.unpack_pack (by decide) hq
  refine ⟨?_, ?_, ?_⟩
  · change (packed u).toModel.unpack.isFinite = true
    rw [hunpack]
    exact h.finite
  · rw [double, hunpack]
    exact h.ge lo hlo.representable hlower
  · rw [double, hunpack]
    exact h.le hi hhi.representable hupper

section Operations

variable (hlo : IsDouble lo) (hhi : IsDouble hi) (hx : x.isFinite = true) (hy : y.isFinite = true)

include hlo hhi hx hy

theorem betweenDoubles_sub (hlower : lo ≤ double x - double y) (hupper : double x - double y ≤ hi) :
    BetweenDoubles lo hi (x - y) :=
  betweenDoubles_of_rounds (rounds_sub (isCanonical_unpack_double x).1
    (isCanonical_unpack_double y).1 hx hy) hlo hhi hlower hupper

theorem betweenDoubles_mul (hlower : lo ≤ double x * double y) (hupper : double x * double y ≤ hi) :
    BetweenDoubles lo hi (x * y) :=
  betweenDoubles_of_rounds (rounds_mul (isCanonical_unpack_double x).1
    (isCanonical_unpack_double y).1 hx hy) hlo hhi hlower hupper

theorem betweenDoubles_div (hne : double y ≠ 0) (hlower : lo ≤ double x / double y)
    (hupper : double x / double y ≤ hi) : BetweenDoubles lo hi (x / y) :=
  betweenDoubles_of_rounds (rounds_div hx hy hne) hlo hhi hlower hupper

end Operations

/-- What lies between finite numbers is finite. -/
theorem betweenDoubles_of_le {low high : Float} (hlow : low.isFinite = true)
    (hhigh : high.isFinite = true) (hl : low ≤ x) (hh : x ≤ high) :
    BetweenDoubles (double low) (double high) x := by
  obtain ⟨_, hnan, hbelow⟩ := (le_iff low x).mp hl
  obtain ⟨_, _, habove⟩ := (le_iff x high).mp hh
  have hfinite : x.isFinite = true := isFinite_of_position hnan
    ((position_of_isFinite hlow).1.trans_le hbelow) (habove.trans_lt (position_of_isFinite hhigh).2)
  exact ⟨hfinite, (le_iff_double hlow hfinite).mp hl, (le_iff_double hfinite hhigh).mp hh⟩

/-- What has a number below and one above is finite. -/
theorem isFinite_of_lt_of_lt {low high : Float} (hl : low < x) (hh : x < high) :
    x.isFinite = true := by
  have hbounds (u : UnpackedFloat) : unpackedPosition (.infinity .negative) ≤ unpackedPosition u ∧
      unpackedPosition u ≤ unpackedPosition (.infinity .positive) := by
    rcases u with ⟨⟨⟩⟩ | _ | _ | ⟨⟨⟩, m, e, hm⟩ <;>
      simp [unpackedPosition, Prod.Lex.toLex_le_toLex]
  obtain ⟨_, hnan, hbelow⟩ := (lt_iff low x).mp hl
  obtain ⟨_, _, habove⟩ := (lt_iff x high).mp hh
  exact isFinite_of_position hnan ((hbounds _).1.trans_lt hbelow) (habove.trans_le (hbounds _).2)

/-! ### Whole numbers as bounds -/

/-- The number is finite, and not beyond `n` on either side. -/
structure WithinNat (n : ℕ) (x : Float) : Prop where
  finite : x.isFinite = true
  abs_le : |double x| ≤ n

section WithinNat

variable {n m : ℕ}

theorem withinNat_of_between (h : BetweenDoubles (-n) n x) : WithinNat n x :=
  ⟨h.finite, abs_le.mpr ⟨h.lower, h.upper⟩⟩

theorem withinNat_sub (h : n + m < 2 ^ 53) (hx : WithinNat n x) (hy : WithinNat m y) :
    WithinNat (n + m) (x - y) := by
  have hbound : |double x - double y| ≤ (n + m : ℕ) := by
    push_cast
    exact (abs_sub _ _).trans (add_le_add hx.abs_le hy.abs_le)
  obtain ⟨hlower, hupper⟩ := abs_le.mp hbound
  exact withinNat_of_between (betweenDoubles_sub (isDouble_natCast h).neg (isDouble_natCast h)
    hx.finite hy.finite hlower hupper)

theorem withinNat_mul (h : n * m < 2 ^ 53) (hx : WithinNat n x) (hy : WithinNat m y) :
    WithinNat (n * m) (x * y) := by
  have hbound : |double x * double y| ≤ (n * m : ℕ) := by
    rw [abs_mul, Nat.cast_mul]
    exact mul_le_mul hx.abs_le hy.abs_le (abs_nonneg _) (Nat.cast_nonneg n)
  obtain ⟨hlower, hupper⟩ := abs_le.mp hbound
  exact withinNat_of_between (betweenDoubles_mul (isDouble_natCast h).neg (isDouble_natCast h)
    hx.finite hy.finite hlower hupper)

end WithinNat

/-! ## Narrowing -/

/-- A number that is narrowed stays between two numbers of single precision. -/
theorem between_narrow (hlo : IsSingle lo) (hhi : IsSingle hi) (h : BetweenDoubles lo hi x) :
    Between lo hi (narrow x) := by
  obtain ⟨hfinite, hlower, hupper⟩ := h
  change x.toModel.unpack.isFinite = true at hfinite
  unfold double at hlower hupper
  unfold narrow
  cases hu : x.toModel.unpack with
  | infinity | notANumber =>
    rw [hu] at hfinite
    contradiction
  | zero sign =>
    rw [hu] at hlower hupper
    exact between_of_rounds (rounds_zero .binary32 sign) hlo hhi hlower hupper
  | finite sign mantissa exponent hpos =>
    rw [hu, value_finite] at hlower hupper
    have hrounds := rounds_roundRatio .binary32 sign (scale 2 exponent mantissa)
      (scale_pos two_ne_zero (-exponent) one_pos)
    rw [scale_div_scale two_ne_zero exponent mantissa 1, Nat.cast_one, div_one] at hrounds
    exact between_of_rounds hrounds hlo hhi hlower hupper

/-- What is narrowed to a finite number is finite. -/
theorem isFinite_of_narrow (h : (narrow x).isFinite = true) : x.isFinite = true := by
  change x.toModel.unpack.isFinite = true
  unfold narrow at h
  cases hu : x.toModel.unpack with
  | zero | finite => rfl
  | infinity sign =>
    rw [hu] at h
    exact isFinite_of_unpack_pack h
  | notANumber =>
    rw [hu] at h
    contradiction

end Symbology.Number
