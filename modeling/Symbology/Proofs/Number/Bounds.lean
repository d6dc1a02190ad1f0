import Symbology.Proofs.Number.Single

set_option autoImplicit false

/-! # Bounds of single-precision numbers

A finite number has a value (`single`), and the order of the numbers is that of the values
(`le_iff_single`). The result of an operation lies between two numbers of the format if the exact
result does (`Between`), so that bounds are carried through a computation step by step. -/

namespace Symbology.Number

open Float.Model (UnpackedFloat Format)
open Float.Model.UnpackedFloat (Sign)

variable {x y low high : Float32} {lo hi q r : ℚ} {n m : ℕ}

/-! ## Values -/

/-- The value of a finite number. -/
def single (x : Float32) : ℚ :=
  value x.toModel.unpack

/-- The fraction is the value of a number. -/
structure IsSingle (r : ℚ) : Prop where
  representable : Representable .binary32 r
  abs_le : |r| ≤ greatest .binary32

theorem isCanonical_unpack_single (x : Float32) :
    IsCanonical .binary32 x.toModel.unpack ∧ InRange .binary32 x.toModel.unpack :=
  isCanonical_unpack (by decide) _

theorem greatest_single : greatest .binary32 = (2 ^ 24 - 1) * 2 ^ (104 : ℕ) := by
  norm_num [greatest, Format.mantissaBits]

theorem isSingle_of_nat {mantissa exponent : ℕ} (hmantissa : mantissa < 2 ^ 24)
    (hexponent : exponent ≤ 104) : IsSingle (mantissa * 2 ^ exponent) := by
  have habs : |(mantissa : ℚ) * 2 ^ exponent| = mantissa * 2 ^ exponent :=
    abs_of_nonneg (by positivity)
  refine ⟨⟨mantissa, exponent, hmantissa, ?_, by rw [habs, zpow_natCast]⟩, ?_⟩
  · exact le_trans (by decide) (Int.natCast_nonneg exponent)
  · have hcast : (mantissa : ℚ) ≤ 2 ^ 24 - 1 := by
      rw [le_sub_iff_add_le]
      exact_mod_cast hmantissa
    rw [habs, greatest_single]
    exact mul_le_mul hcast (pow_le_pow_right₀ one_le_two hexponent) (by positivity) (by norm_num)

theorem IsSingle.neg (h : IsSingle r) : IsSingle (-r) :=
  ⟨h.representable.neg, by rw [abs_neg]; exact h.abs_le⟩

theorem isSingle_natCast {k : ℕ} (h : k < 2 ^ 24) : IsSingle k := by
  simpa using isSingle_of_nat h (Nat.zero_le 104)

theorem isSingle_zero : IsSingle 0 := by
  simpa using isSingle_natCast (by decide : 0 < 2 ^ 24)

theorem isSingle_one : IsSingle 1 := by
  simpa using isSingle_natCast (by decide : 1 < 2 ^ 24)

theorem isSingle_two : IsSingle 2 := by
  simpa using isSingle_natCast (by decide : 2 < 2 ^ 24)

theorem isSingle_greatest : IsSingle (greatest .binary32) := by
  have h := isSingle_of_nat (by decide : 2 ^ 24 - 1 < 2 ^ 24) (le_refl 104)
  rw [greatest_single]
  norm_num at h ⊢
  exact h

theorem representable_value {spec : Format} {u : UnpackedFloat} (hcanonical : IsCanonical spec u) :
    Representable spec (value u) := by
  cases u with
  | finite sign mantissa exponent hpos =>
    exact ⟨mantissa, exponent, hcanonical.lt, hcanonical.least, abs_value_finite ..⟩
  | _ => exact ⟨0, spec.minExponent, Nat.two_pow_pos _, le_rfl, by simp [value]⟩

/-- The value of a number of a format is not beyond the greatest one. -/
theorem abs_value_le_greatest {spec : Format} {u : UnpackedFloat} (hcanonical : IsCanonical spec u)
    (hrange : InRange spec u) : |value u| ≤ greatest spec := by
  cases u with
  | finite sign mantissa exponent hpos =>
    have hnormal : Normalized spec mantissa exponent := hcanonical
    have hexponent : exponent ≤ 2 ^ (spec.exponentBits - 1) - spec.mantissaBits :=
      le_sub_iff_add_le.mpr hrange
    have hlt := hnormal.lt
    rw [abs_value_finite, greatest]
    exact mul_le_mul (Nat.cast_le.mpr (by omega)) (zpow_le_zpow_right₀ one_le_two hexponent)
      (by positivity) (Nat.cast_nonneg _)
  | _ =>
    have hnonneg : (0 : ℚ) ≤ greatest spec := mul_nonneg (Nat.cast_nonneg _) (by positivity)
    simpa [value] using hnonneg

theorem abs_single_le (x : Float32) : |single x| ≤ greatest .binary32 :=
  abs_value_le_greatest (isCanonical_unpack_single x).1 (isCanonical_unpack_single x).2

theorem single_of_unpack {sign : Sign} {mantissa : ℕ} {exponent : ℤ} {hpos : 0 < mantissa}
    (h : x.toModel.unpack = .finite sign mantissa exponent hpos) :
    single x = signed sign (mantissa * 2 ^ exponent) := by
  rw [single, h, value_finite]

@[simp] theorem single_zero : single 0 = 0 :=
  rfl

@[simp] theorem single_one : single 1 = 1 := by
  have hunpack : (1 : Float32).toModel.unpack = .finite .positive 0x800000 (-23) (by decide) := rfl
  rw [single_of_unpack hunpack]
  norm_num [signed]

@[simp] theorem single_two : single 2 = 2 := by
  have hunpack : (2 : Float32).toModel.unpack = .finite .positive 0x800000 (-22) (by decide) := rfl
  rw [single_of_unpack hunpack]
  norm_num [signed]

/-! ### The order of the values -/

theorem value_lt_of_lt {spec : Format} {m n : ℕ} {e f : ℤ} (hm : Normalized spec m e)
    (hn : Normalized spec n f) (h : e < f ∨ e = f ∧ m < n) :
    (m : ℚ) * 2 ^ e < n * 2 ^ f := by
  rcases h with hlt | ⟨rfl, hlt⟩
  · have hfull : (2 : ℚ) ^ spec.mantissaBitsWithoutImplicit ≤ n := by
      have hleast := hm.least
      exact_mod_cast hn.full.resolve_right (by omega)
    exact (lt_of_exponent_lt hm.lt hlt).trans_le (mul_le_mul_of_nonneg_right hfull (by positivity))
  · exact mul_lt_mul_of_pos_right (Nat.cast_lt.mpr hlt) (by positivity)

/-- A place further on the line has a greater value. -/
theorem value_lt_of_position_lt {spec : Format} {u v : UnpackedFloat}
    (hu : IsCanonical spec u) (hv : IsCanonical spec v) (hfiniteU : u.isFinite = true)
    (hfiniteV : v.isFinite = true) (h : unpackedPosition u < unpackedPosition v) :
    value u < value v := by
  have hpositive {m : ℕ} (e : ℤ) (hm : 0 < m) : (0 : ℚ) < m * 2 ^ e :=
    mul_pos (Nat.cast_pos.mpr hm) (by positivity)
  cases u with
  | infinity | notANumber => contradiction
  | zero s =>
    cases v with
    | infinity | notANumber => contradiction
    | zero t => exact absurd h (lt_irrefl _)
    | finite t n f hn =>
      cases t with
      | negative => simp [unpackedPosition, Prod.Lex.toLex_lt_toLex] at h
      | positive =>
        rw [value_finite]
        exact hpositive f hn
  | finite s m e hm =>
    cases v with
    | infinity | notANumber => contradiction
    | zero t =>
      cases s with
      | negative =>
        rw [value_finite]
        exact neg_lt_zero.mpr (hpositive e hm)
      | positive => simp [unpackedPosition, Prod.Lex.toLex_lt_toLex] at h
    | finite t n f hn =>
      rw [value_finite, value_finite]
      cases s <;> cases t <;> simp [unpackedPosition, Prod.Lex.toLex_lt_toLex] at h
      · -- on the negative side all is mirrored
        exact neg_lt_neg (value_lt_of_lt hv hu (by omega))
      · exact (neg_lt_zero.mpr (hpositive e hm)).trans (hpositive f hn)
      · exact value_lt_of_lt hu hv h

theorem value_eq_of_position_eq {u v : UnpackedFloat} (hfiniteU : u.isFinite = true)
    (hfiniteV : v.isFinite = true) (h : unpackedPosition u = unpackedPosition v) :
    value u = value v := by
  cases u with
  | infinity | notANumber => contradiction
  | zero s =>
    cases v with
    | infinity | notANumber => contradiction
    | zero t => rfl
    | finite t n f hn => cases t <;> simp [unpackedPosition] at h
  | finite s m e hm =>
    cases v with
    | infinity | notANumber => contradiction
    | zero t => cases s <;> simp [unpackedPosition] at h
    | finite t n f hn =>
      rw [value_finite, value_finite]
      cases s <;> cases t <;> simp [unpackedPosition] at h <;> simp [h, signed]

/-- **Numbers of a format are ordered by their values.** -/
theorem position_le_iff_value {spec : Format} {u v : UnpackedFloat} (hu : IsCanonical spec u)
    (hv : IsCanonical spec v) (hfiniteU : u.isFinite = true) (hfiniteV : v.isFinite = true) :
    unpackedPosition u ≤ unpackedPosition v ↔ value u ≤ value v := by
  constructor
  · intro hle
    rcases hle.lt_or_eq with hlt | heq
    · exact (value_lt_of_position_lt hu hv hfiniteU hfiniteV hlt).le
    · exact (value_eq_of_position_eq hfiniteU hfiniteV heq).le
  · intro hle
    by_contra hnot
    exact absurd (value_lt_of_position_lt hv hu hfiniteV hfiniteU (not_le.mp hnot)) (not_lt.mpr hle)

theorem le_iff_single (hx : x.isFinite = true) (hy : y.isFinite = true) :
    x ≤ y ↔ single x ≤ single y := by
  have hposition := position_le_iff_value (isCanonical_unpack_single x).1
    (isCanonical_unpack_single y).1 hx hy
  rw [single_le_iff]
  exact ⟨fun h => hposition.mp h.2.2, fun h =>
    ⟨isNaN_single_of_isFinite hx, isNaN_single_of_isFinite hy, hposition.mpr h⟩⟩

/-! ## Results between two bounds -/

/-- The number is finite, and its value lies between the bounds. -/
structure Between (lo hi : ℚ) (x : Float32) : Prop where
  finite : x.isFinite = true
  lower : lo ≤ single x
  upper : single x ≤ hi

theorem position_of_isFinite {u : UnpackedFloat} (h : u.isFinite = true) :
    unpackedPosition (.infinity .negative) < unpackedPosition u ∧
      unpackedPosition u < unpackedPosition (.infinity .positive) := by
  rcases u with _ | _ | _ | ⟨_ | _, m, e, hm⟩ <;>
    first
      | contradiction
      | simp [unpackedPosition, Prod.Lex.toLex_lt_toLex]

/-- What lies strictly between the infinities is finite. -/
theorem isFinite_of_position {u : UnpackedFloat} (hnan : u.isNaN = false)
    (hlower : unpackedPosition (.infinity .negative) < unpackedPosition u)
    (hupper : unpackedPosition u < unpackedPosition (.infinity .positive)) : u.isFinite = true := by
  cases u with
  | zero | finite => rfl
  | notANumber => contradiction
  | infinity sign =>
    cases sign with
    | negative => exact absurd hlower (lt_irrefl _)
    | positive => exact absurd hupper (lt_irrefl _)

/-- What lies between finite numbers is finite. -/
theorem between_of_le (hlow : low.isFinite = true) (hhigh : high.isFinite = true) (hl : low ≤ x)
    (hh : x ≤ high) : Between (single low) (single high) x := by
  obtain ⟨_, hnan, hbelow⟩ := (single_le_iff low x).mp hl
  obtain ⟨_, _, habove⟩ := (single_le_iff x high).mp hh
  have hfinite : x.isFinite = true := isFinite_of_position hnan
    ((position_of_isFinite hlow).1.trans_le hbelow) (habove.trans_lt (position_of_isFinite hhigh).2)
  exact ⟨hfinite, (le_iff_single hlow hfinite).mp hl, (le_iff_single hfinite hhigh).mp hh⟩

theorem between_half : Between 0 1 0.5 := by
  have h := between_of_le rfl rfl (by decide : (0 : Float32) ≤ 0.5) (by decide : (0.5 : Float32) ≤ 1)
  rwa [single_zero, single_one] at h

/-- A packed rounding of a fraction between two numbers of the format. -/
theorem between_of_rounds {u : UnpackedFloat} (h : Rounds .binary32 q u) (hlo : IsSingle lo)
    (hhi : IsSingle hi) (hlower : lo ≤ q) (hupper : q ≤ hi) :
    Between lo hi (.ofModel (Float32.Model.pack u)) := by
  have hq : |q| ≤ greatest .binary32 :=
    abs_le.mpr ⟨(abs_le.mp hlo.abs_le).1.trans hlower, hupper.trans (abs_le.mp hhi.abs_le).2⟩
  have hunpack : (Float32.ofModel (Float32.Model.pack u)).toModel.unpack = u :=
    h.unpack_pack (by decide) hq
  refine ⟨?_, ?_, ?_⟩
  · change (Float32.ofModel (Float32.Model.pack u)).toModel.unpack.isFinite = true
    rw [hunpack]
    exact h.finite
  · rw [single, hunpack]
    exact h.ge lo hlo.representable hlower
  · rw [single, hunpack]
    exact h.le hi hhi.representable hupper

theorem rounds_abs {spec : Format} {u : UnpackedFloat} (hcanonical : IsCanonical spec u)
    (hfinite : u.isFinite = true) : Rounds spec |value u| u.abs := by
  cases u with
  | infinity | notANumber => contradiction
  | zero sign =>
    rw [show value (.zero sign) = 0 from rfl, abs_zero]
    exact rounds_zero spec .positive
  | finite sign mantissa exponent hpos =>
    rw [abs_value_finite, ← show value (.finite .positive mantissa exponent hpos) =
      mantissa * 2 ^ exponent from value_finite .positive hpos]
    exact rounds_self rfl hcanonical

section Operations

variable (hlo : IsSingle lo) (hhi : IsSingle hi) (hx : x.isFinite = true) (hy : y.isFinite = true)

include hlo hhi hx

theorem between_abs (hlower : lo ≤ |single x|) (hupper : |single x| ≤ hi) :
    Between lo hi x.abs :=
  between_of_rounds (rounds_abs (isCanonical_unpack_single x).1 hx) hlo hhi hlower hupper

include hy

theorem between_add (hlower : lo ≤ single x + single y) (hupper : single x + single y ≤ hi) :
    Between lo hi (x + y) :=
  between_of_rounds (rounds_add (isCanonical_unpack_single x).1 (isCanonical_unpack_single y).1
    hx hy) hlo hhi hlower hupper

theorem between_sub (hlower : lo ≤ single x - single y) (hupper : single x - single y ≤ hi) :
    Between lo hi (x - y) :=
  between_of_rounds (rounds_sub (isCanonical_unpack_single x).1 (isCanonical_unpack_single y).1
    hx hy) hlo hhi hlower hupper

theorem between_mul (hlower : lo ≤ single x * single y) (hupper : single x * single y ≤ hi) :
    Between lo hi (x * y) :=
  between_of_rounds (rounds_mul (isCanonical_unpack_single x).1 (isCanonical_unpack_single y).1
    hx hy) hlo hhi hlower hupper

theorem between_div (hne : single y ≠ 0) (hlower : lo ≤ single x / single y)
    (hupper : single x / single y ≤ hi) : Between lo hi (x / y) :=
  between_of_rounds (rounds_div hx hy hne) hlo hhi hlower hupper

end Operations

theorem between_singleOfBinary {n : ℕ} (sign : Sign) (hlo : IsSingle lo) (hhi : IsSingle hi)
    (hlower : lo ≤ signed sign n) (hupper : signed sign n ≤ hi) :
    Between lo hi (singleOfBinary sign n 0) := by
  have hrounds := rounds_roundRatio .binary32 sign n one_pos
  rw [Nat.cast_one, div_one] at hrounds
  have hscale : singleOfBinary sign n 0 =
      .ofModel (Float32.Model.pack (roundRatio .binary32 sign n 1)) := by
    simp [singleOfBinary, singleOfRatio, scale]
  rw [hscale]
  exact between_of_rounds hrounds hlo hhi hlower hupper

/-! ### Whole numbers -/

/-- A whole number rounded down, or its opposite rounded up, is not below a whole bound. -/
theorem cast_le_cast_of_lt_add_one {a n : ℤ} (hlower : (a : ℚ) ≤ q) (h : q < n + 1) :
    (a : ℚ) ≤ n := by
  have hbound : a < n + 1 := by exact_mod_cast hlower.trans_lt h
  exact Int.cast_le.mpr (Int.lt_add_one_iff.mp hbound)

section RoundedUp

variable (numerator : ℕ) {denominator : ℕ} (hden : 0 < denominator)

include hden

theorem div_le_rounded_up :
    (numerator / denominator : ℚ) ≤ ((numerator + denominator - 1) / denominator : ℕ) := by
  have hsplit := Nat.div_add_mod' (numerator + denominator - 1) denominator
  have hrest := Nat.mod_lt (numerator + denominator - 1) hden
  rw [div_le_iff₀ (Nat.cast_pos.mpr hden)]
  exact_mod_cast (by omega :
    numerator ≤ (numerator + denominator - 1) / denominator * denominator)

theorem rounded_up_lt_div_add_one :
    (((numerator + denominator - 1) / denominator : ℕ) : ℚ) < numerator / denominator + 1 := by
  have hd : (0 : ℚ) < denominator := Nat.cast_pos.mpr hden
  have hsplit := Nat.div_add_mod' (numerator + denominator - 1) denominator
  rw [← div_self hd.ne', ← add_div, lt_div_iff₀ hd]
  exact_mod_cast (by omega :
    (numerator + denominator - 1) / denominator * denominator < numerator + denominator)

end RoundedUp

/-- The whole number below a number is not beyond whole bounds. -/
theorem between_floor {a b : ℤ} (ha : IsSingle a) (hb : IsSingle b) (hx : x.isFinite = true)
    (hlower : a ≤ single x) (hupper : single x ≤ b) : Between a b (floor x) := by
  unfold floor
  split
  next sign mantissa e hpos hunpack =>
    have hd : 0 < 2 ^ (e + 1) := Nat.two_pow_pos _
    have hvalue : single x = signed sign (mantissa / (2 ^ (e + 1) : ℕ)) := by
      rw [single, hunpack, value_finite, zpow_negSucc, div_eq_mul_inv]
      push_cast
      rfl
    rw [hvalue] at hlower hupper
    dsimp only [Nat.pow_eq]
    generalize 2 ^ (e + 1) = d at *
    cases sign with
    | positive =>
      have hle : signed .positive (mantissa / d : ℕ) ≤ signed .positive (mantissa / d) :=
        Nat.cast_div_le
      exact between_singleOfBinary .positive ha hb
        (cast_le_cast_of_lt_add_one hlower (div_lt_whole_add_one mantissa hd)) (hle.trans hupper)
    | negative =>
      have hle : signed .negative ((mantissa + d - 1) / d : ℕ) ≤ signed .negative (mantissa / d) :=
        neg_le_neg (div_le_rounded_up mantissa hd)
      have hlt : signed .negative (mantissa / d) < (-((mantissa + d - 1) / d : ℕ) : ℤ) + 1 := by
        have hup := rounded_up_lt_div_add_one mantissa hd
        rw [signed, Int.cast_neg, Int.cast_natCast]
        linarith only [hup]
      have hint := cast_le_cast_of_lt_add_one hlower hlt
      rw [Int.cast_neg, Int.cast_natCast] at hint
      exact between_singleOfBinary .negative ha hb hint (hle.trans hupper)
  · exact ⟨hx, hlower, hupper⟩

/-! ## Powers of two as bounds -/

/-- The number is finite, and not beyond `2 ^ n` on either side. -/
structure Within (n : ℕ) (x : Float32) : Prop where
  finite : x.isFinite = true
  abs_le : |single x| ≤ 2 ^ n

theorem isSingle_two_pow (h : n ≤ 127) : IsSingle (2 ^ n) := by
  have hmantissa : 2 ^ (n - 104) < 2 ^ 24 := Nat.pow_lt_pow_right one_lt_two (by omega)
  have h := isSingle_of_nat hmantissa (min_le_right n 104)
  rwa [Nat.cast_pow, Nat.cast_two, ← pow_add, show n - 104 + min n 104 = n by omega] at h

theorem within_of_between (h : Between (-2 ^ n) (2 ^ n) x) : Within n x :=
  ⟨h.finite, abs_le.mpr ⟨h.lower, h.upper⟩⟩

theorem within_sub (h : n < 127) (hx : Within n x) (hy : Within n y) : Within (n + 1) (x - y) := by
  have hbound : |single x - single y| ≤ 2 ^ (n + 1) := by
    rw [pow_succ, mul_two]
    exact (abs_sub _ _).trans (add_le_add hx.abs_le hy.abs_le)
  obtain ⟨hlower, hupper⟩ := abs_le.mp hbound
  exact within_of_between (between_sub (isSingle_two_pow h).neg (isSingle_two_pow h) hx.finite
    hy.finite hlower hupper)

theorem within_mul (h : n + m ≤ 127) (hx : Within n x) (hy : Within m y) :
    Within (n + m) (x * y) := by
  have hbound : |single x * single y| ≤ 2 ^ (n + m) := by
    rw [abs_mul, pow_add]
    exact mul_le_mul hx.abs_le hy.abs_le (abs_nonneg _) (by positivity)
  obtain ⟨hlower, hupper⟩ := abs_le.mp hbound
  exact within_of_between (between_mul (isSingle_two_pow h).neg (isSingle_two_pow h) hx.finite
    hy.finite hlower hupper)

theorem within_abs (h : n ≤ 127) (hx : Within n x) : Within n x.abs :=
  within_of_between (between_abs (isSingle_two_pow h).neg (isSingle_two_pow h) hx.finite
    ((neg_nonpos.mpr (by positivity)).trans (abs_nonneg _)) hx.abs_le)

theorem within_floor (h : n ≤ 127) (hx : Within n x) : Within n (floor x) := by
  obtain ⟨hlower, hupper⟩ := abs_le.mp hx.abs_le
  have hsingle := isSingle_two_pow h
  have hbetween : Between ((-2 ^ n : ℤ) : ℚ) ((2 ^ n : ℤ) : ℚ) (floor x) :=
    between_floor (by push_cast; exact hsingle.neg) (by push_cast; exact hsingle) hx.finite
      (by push_cast; exact hlower) (by push_cast; exact hupper)
  push_cast at hbetween
  exact within_of_between hbetween

theorem within_one : Within 0 1 :=
  ⟨rfl, by norm_num⟩

theorem within_two : Within 1 2 :=
  ⟨rfl, by norm_num⟩

theorem within_half : Within 0 0.5 :=
  ⟨rfl, by rw [abs_of_nonneg between_half.lower, pow_zero]; exact between_half.upper⟩

theorem Within.mono (hx : Within n x) (h : n ≤ m) : Within m x :=
  ⟨hx.finite, hx.abs_le.trans (pow_le_pow_right₀ one_le_two h)⟩

end Symbology.Number
