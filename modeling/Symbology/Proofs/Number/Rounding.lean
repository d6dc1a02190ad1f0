import Mathlib
import Symbology.Number.Shortest

set_option autoImplicit false

/-! # What is rounded to a floating-point number

Each floating-point number stands for the fractions of an interval around it. `Binary.Contains`
describes that interval by rational numbers, `rounds_iff` says that this is what the printer looks
at, and `roundRatio_eq` says that rounding a fraction of the interval gives the number. The proof
finds the power of two of the last place (`binade_spec`) and rounds the quotient
(`roundQuotient_eq`). -/

namespace Symbology.Number

open Float.Model (UnpackedFloat Format)
open Float.Model.UnpackedFloat (Sign)

/-! ## Scaled fractions -/

/-- Scaling both sides of a fraction multiplies it by the power. -/
theorem scale_div_scale {base : ℕ} (hbase : base ≠ 0) (e : ℤ) (x y : ℕ) :
    (scale base e x : ℚ) / scale base (-e) y = x / y * (base : ℚ) ^ e := by
  have hne : (base : ℚ) ≠ 0 := Nat.cast_ne_zero.mpr hbase
  obtain ⟨n, rfl | rfl⟩ := e.eq_nat_or_neg
  · simp only [scale, Nat.pow_eq, Int.toNat_natCast, Int.toNat_neg_natCast, pow_zero, mul_one,
      Nat.cast_mul, Nat.cast_pow, zpow_natCast]
    ring
  · simp only [scale, Nat.pow_eq, neg_neg, Int.toNat_natCast, Int.toNat_neg_natCast, pow_zero,
      mul_one, Nat.cast_mul, Nat.cast_pow, zpow_neg, zpow_natCast]
    rw [div_mul_eq_div_div, div_eq_mul_inv (x / y : ℚ)]

theorem scale_pos {base : ℕ} (hbase : base ≠ 0) (e : ℤ) {x : ℕ} (hx : 0 < x) :
    0 < scale base e x :=
  Nat.mul_pos hx (Nat.pow_pos (Nat.pos_of_ne_zero hbase))

/-! ## Rounding to whole numbers -/

theorem roundQuotient_eq_of_bounds {numerator denominator m : ℕ} (hpos : 0 < denominator)
    (hlow : 2 * (m * denominator) ≤ 2 * numerator + denominator)
    (hhigh : 2 * numerator ≤ 2 * (m * denominator) + denominator)
    (hodd : m % 2 = 1 → 2 * (m * denominator) < 2 * numerator + denominator ∧
      2 * numerator < 2 * (m * denominator) + denominator) :
    roundQuotient numerator denominator = m := by
  have hsplit : numerator / denominator * denominator + numerator % denominator = numerator :=
    Nat.div_add_mod' numerator denominator
  have hrest : numerator % denominator < denominator := Nat.mod_lt _ hpos
  unfold roundQuotient
  generalize numerator / denominator = k at *
  generalize numerator % denominator = r at *
  -- `m` is the quotient or the number after it
  have hle : k ≤ m := by
    by_contra hlt
    have hmul := Nat.mul_le_mul_right denominator (Nat.succ_le_of_lt (not_le.mp hlt))
    rw [Nat.succ_mul] at hmul
    omega
  have hge : m ≤ k + 1 := by
    by_contra hlt
    have hmul := Nat.mul_le_mul_right denominator (Nat.succ_le_of_lt (not_le.mp hlt))
    rw [Nat.succ_mul, Nat.succ_mul] at hmul
    omega
  rcases Nat.eq_or_lt_of_le hle with rfl | hlt
  · dsimp only
    split
    · rfl
    · split <;> omega
  · obtain rfl : m = k + 1 := by omega
    have hmul : (k + 1) * denominator = k * denominator + denominator := Nat.succ_mul ..
    rw [hmul] at hlow hhigh hodd
    dsimp only
    split
    · omega
    · split <;> omega

/-- **The nearest whole number**, which is the even one of two. -/
theorem roundQuotient_eq {numerator denominator m : ℕ} (hpos : 0 < denominator)
    (hlow : (m : ℚ) - 1 / 2 ≤ numerator / denominator)
    (hhigh : (numerator / denominator : ℚ) ≤ m + 1 / 2)
    (hodd : m % 2 = 1 → (m : ℚ) - 1 / 2 < numerator / denominator ∧
      (numerator / denominator : ℚ) < m + 1 / 2) :
    roundQuotient numerator denominator = m := by
  have hd : (0 : ℚ) < denominator := Nat.cast_pos.mpr hpos
  refine roundQuotient_eq_of_bounds hpos ?_ ?_ ?_
  · have h := (le_div_iff₀ hd).mp hlow
    exact_mod_cast (by linarith : (2 : ℚ) * (m * denominator) ≤ 2 * numerator + denominator)
  · have h := (div_le_iff₀ hd).mp hhigh
    exact_mod_cast (by linarith : (2 : ℚ) * numerator ≤ 2 * (m * denominator) + denominator)
  · intro hm
    obtain ⟨h₁, h₂⟩ := hodd hm
    rw [lt_div_iff₀ hd] at h₁
    rw [div_lt_iff₀ hd] at h₂
    constructor
    · exact_mod_cast (by linarith : (2 : ℚ) * (m * denominator) < 2 * numerator + denominator)
    · exact_mod_cast (by linarith : (2 : ℚ) * numerator < 2 * (m * denominator) + denominator)

/-! ## The last place -/

theorem two_pow_mul_zpow (n : ℕ) (e : ℤ) : (2 : ℚ) ^ n * 2 ^ e = 2 ^ (n + e : ℤ) := by
  rw [zpow_add₀ two_ne_zero, zpow_natCast]

/-- The quotient of a fraction by a power of two. -/
theorem scaled_eq (numerator denominator : ℕ) (place : ℤ) :
    (scale 2 (-place) numerator : ℚ) / scale 2 place denominator =
      numerator / denominator / 2 ^ place := by
  have h := scale_div_scale two_ne_zero (-place) numerator denominator
  rw [neg_neg, zpow_neg, ← div_eq_mul_inv] at h
  exact_mod_cast h

/-- Comparing scaled numbers compares the fraction with the power. -/
theorem scale_lt_scale_iff {numerator denominator : ℕ} (hden : 0 < denominator) (e : ℤ) :
    scale 2 (-e) numerator < scale 2 e denominator ↔ (numerator / denominator : ℚ) < 2 ^ e := by
  have hscaled : (0 : ℚ) < scale 2 e denominator := Nat.cast_pos.mpr (scale_pos two_ne_zero e hden)
  rw [← Nat.cast_lt (α := ℚ), ← div_lt_one hscaled, scaled_eq, div_lt_one (by positivity)]

/-- **A fraction has as many binary digits as its binade says.** -/
theorem binade_spec {numerator denominator : ℕ} (hnum : 0 < numerator) (hden : 0 < denominator) :
    (2 : ℚ) ^ (binade numerator denominator - 1) ≤ numerator / denominator ∧
      (numerator / denominator : ℚ) < 2 ^ binade numerator denominator := by
  have hd : (0 : ℚ) < denominator := Nat.cast_pos.mpr hden
  have hnum_low : (2 : ℚ) ^ (numerator.log2 : ℤ) ≤ numerator := by
    exact_mod_cast Nat.log2_self_le hnum.ne'
  have hnum_high : (numerator : ℚ) < 2 ^ ((numerator.log2 : ℤ) + 1) := by
    exact_mod_cast Nat.lt_log2_self
  have hden_low : (2 : ℚ) ^ (denominator.log2 : ℤ) ≤ denominator := by
    exact_mod_cast Nat.log2_self_le hden.ne'
  have hden_high : (denominator : ℚ) < 2 ^ ((denominator.log2 : ℤ) + 1) := by
    exact_mod_cast Nat.lt_log2_self
  unfold binade
  generalize (numerator.log2 : ℤ) = a at *
  generalize (denominator.log2 : ℤ) = b at *
  -- the numbers of digits leave two binades to choose from
  have hlow : (2 : ℚ) ^ (a - b - 1) ≤ numerator / denominator := by
    rw [le_div_iff₀ hd]
    calc (2 : ℚ) ^ (a - b - 1) * denominator ≤ 2 ^ (a - b - 1) * 2 ^ (b + 1) := by gcongr
      _ = 2 ^ a := by rw [← zpow_add₀ two_ne_zero]; congr 1; omega
      _ ≤ numerator := hnum_low
  have hhigh : (numerator / denominator : ℚ) < 2 ^ (a - b + 1) := by
    rw [div_lt_iff₀ hd]
    calc (numerator : ℚ) < 2 ^ (a + 1) := hnum_high
      _ = 2 ^ (a - b + 1) * 2 ^ b := by rw [← zpow_add₀ two_ne_zero]; congr 1; omega
      _ ≤ 2 ^ (a - b + 1) * denominator := by gcongr
  dsimp only
  split
  next h => exact ⟨hlow, (scale_lt_scale_iff hden _).mp h⟩
  next h =>
    rw [add_sub_cancel_right]
    exact ⟨not_lt.mp (fun hlt => h ((scale_lt_scale_iff hden _).mpr hlt)), hhigh⟩

/-- The binade is the only power of two that fits. -/
theorem binade_eq {numerator denominator : ℕ} (hnum : 0 < numerator) (hden : 0 < denominator)
    {e : ℤ} (hlow : (2 : ℚ) ^ (e - 1) ≤ numerator / denominator)
    (hhigh : (numerator / denominator : ℚ) < 2 ^ e) : binade numerator denominator = e := by
  obtain ⟨hlow', hhigh'⟩ := binade_spec hnum hden
  have h₁ := (zpow_lt_zpow_iff_right₀ one_lt_two).mp (hlow'.trans_lt hhigh)
  have h₂ := (zpow_lt_zpow_iff_right₀ one_lt_two).mp (hlow.trans_lt hhigh')
  omega

theorem binade_le {numerator denominator : ℕ} (hnum : 0 < numerator) (hden : 0 < denominator)
    {e : ℤ} (hhigh : (numerator / denominator : ℚ) < 2 ^ e) : binade numerator denominator ≤ e := by
  obtain ⟨hlow', _⟩ := binade_spec hnum hden
  have h := (zpow_lt_zpow_iff_right₀ one_lt_two).mp (hlow'.trans_lt hhigh)
  omega

/-! ## The interval of a number -/

/-- A mantissa with as many digits as the format has, or with the least exponent. -/
structure Normalized (spec : Format) (mantissa : ℕ) (exponent : ℤ) : Prop where
  pos : 0 < mantissa
  lt : mantissa < 2 ^ spec.mantissaBits
  least : spec.minExponent ≤ exponent
  full : 2 ^ spec.mantissaBitsWithoutImplicit ≤ mantissa ∨ exponent = spec.minExponent

end Symbology.Number

namespace Symbology.Decimal.Binary

open Symbology.Number (scale scale_div_scale scale_pos)

/-- The fraction lies in the interval of numbers that are rounded to `b`. -/
def Contains (b : Binary) (x : ℚ) : Prop :=
  if b.mantissa % 2 = 0 then
    b.low * (2 : ℚ) ^ (b.exponent - 2) ≤ x ∧ x ≤ b.high * (2 : ℚ) ^ (b.exponent - 2)
  else b.low * (2 : ℚ) ^ (b.exponent - 2) < x ∧ x < b.high * (2 : ℚ) ^ (b.exponent - 2)

/-- A quarter of the last place and a step of the grid are measured alike. -/
theorem exists_measure (b : Binary) (g : ℤ) :
    ∃ d : ℚ, 0 < d ∧ (b.quarter g : ℚ) = 2 ^ (b.exponent - 2) * d ∧
      (b.step g : ℚ) = 10 ^ g * d := by
  have hstep : (0 : ℚ) < b.step g :=
    Nat.cast_pos.mpr (scale_pos two_ne_zero _ (scale_pos (by norm_num) _ one_pos))
  have hinner : (scale 10 (-g) 1 : ℚ) / scale 10 g 1 = 10 ^ (-g) := by
    have h := scale_div_scale (by norm_num : 10 ≠ 0) (-g) 1 1
    rw [neg_neg] at h
    simpa using h
  have hratio : (b.quarter g : ℚ) / b.step g = 10 ^ (-g) * 2 ^ (b.exponent - 2) := by
    have h := scale_div_scale two_ne_zero (b.exponent - 2) (scale 10 (-g) 1) (scale 10 g 1)
    rw [neg_sub, hinner] at h
    exact_mod_cast h
  have hten : (10 : ℚ) ^ g ≠ 0 := zpow_ne_zero g (by norm_num)
  refine ⟨b.step g / 10 ^ g, by positivity, ?_, by field_simp⟩
  rw [div_eq_iff hstep.ne', zpow_neg] at hratio
  rw [hratio]
  field_simp

/-- **The printer looks at the interval.** -/
theorem rounds_iff (b : Binary) (g : ℤ) (c : ℕ) :
    b.rounds g c = true ↔ b.Contains (c * (10 : ℚ) ^ g) := by
  obtain ⟨d, hd, hquarter, hstep⟩ := b.exists_measure g
  have hlow : ∀ k : ℕ, k * b.quarter g ≤ c * b.step g ↔
      k * (2 : ℚ) ^ (b.exponent - 2) ≤ c * 10 ^ g := by
    intro k
    rw [← Nat.cast_le (α := ℚ), Nat.cast_mul, Nat.cast_mul, hquarter, hstep, ← mul_assoc,
      ← mul_assoc, mul_le_mul_iff_left₀ hd]
  have hhigh : ∀ k : ℕ, c * b.step g ≤ k * b.quarter g ↔
      c * (10 : ℚ) ^ g ≤ k * 2 ^ (b.exponent - 2) := by
    intro k
    rw [← Nat.cast_le (α := ℚ), Nat.cast_mul, Nat.cast_mul, hquarter, hstep, ← mul_assoc,
      ← mul_assoc, mul_le_mul_iff_left₀ hd]
  unfold rounds Contains
  dsimp only
  split
  · rw [decide_eq_true_iff, hlow, hhigh]
  · rw [decide_eq_true_iff, ← not_le, ← not_le, hlow, hhigh, not_le, not_le]

end Symbology.Decimal.Binary

namespace Symbology.Number

open Float.Model (UnpackedFloat Format)
open Float.Model.UnpackedFloat (Sign)
open Symbology.Decimal (Binary)

/-- The number as the printer sees it. -/
def binary (spec : Format) (mantissa : ℕ) (exponent : ℤ) : Binary :=
  ⟨mantissa, exponent, mantissa == Nat.pow 2 spec.mantissaBitsWithoutImplicit &&
    decide (spec.minExponent < exponent)⟩

/-- The interval of a number, in units of the last place. -/
theorem bounds_of_contains {spec : Format} {mantissa : ℕ} {exponent : ℤ}
    (hpos : 0 < mantissa) {x : ℚ} (h : (binary spec mantissa exponent).Contains x) :
    (mantissa - 1 / 2) * (2 : ℚ) ^ exponent ≤ x ∧ x ≤ (mantissa + 1 / 2) * 2 ^ exponent ∧
      (mantissa % 2 = 1 →
        (mantissa - 1 / 2) * (2 : ℚ) ^ exponent < x ∧ x < (mantissa + 1 / 2) * 2 ^ exponent) ∧
      ((binary spec mantissa exponent).narrowBelow = true →
        (mantissa - 1 / 4) * (2 : ℚ) ^ exponent ≤ x) := by
  have hquarter : (2 : ℚ) ^ (exponent - 2) = 2 ^ exponent / 4 := by
    rw [zpow_sub₀ two_ne_zero]
    norm_num
  have hu : (0 : ℚ) < 2 ^ exponent := by positivity
  have hhigh : ((binary spec mantissa exponent).high : ℚ) = 4 * mantissa + 2 := by
    simp [Binary.high, binary]
  have hlow : ((binary spec mantissa exponent).low : ℚ) =
      if (binary spec mantissa exponent).narrowBelow then 4 * (mantissa : ℚ) - 1
      else 4 * mantissa - 2 := by
    unfold Binary.low
    split
    · rw [Nat.cast_sub (by simp only [binary]; omega)]
      simp [binary]
    · rw [Nat.cast_sub (by simp only [binary]; omega)]
      simp [binary]
  have hwide : (4 * (mantissa : ℚ) - 2) ≤ (binary spec mantissa exponent).low := by
    rw [hlow]
    split <;> linarith
  unfold Binary.Contains at h
  simp only [hhigh] at h
  rw [show (binary spec mantissa exponent).mantissa = mantissa from rfl,
    show (binary spec mantissa exponent).exponent = exponent from rfl, hquarter] at h
  generalize ((binary spec mantissa exponent).low : ℚ) = low at *
  generalize (2 : ℚ) ^ exponent = u at *
  have hbelow : (mantissa - 1 / 2) * u ≤ low * (u / 4) := by nlinarith
  split at h
  next heven =>
    refine ⟨by linarith [h.1], by linarith [h.2], fun hodd => by omega, fun hnarrow => ?_⟩
    rw [if_pos hnarrow] at hlow
    rw [hlow] at h
    linarith [h.1]
  next =>
    refine ⟨by linarith [h.1], by linarith [h.2], fun _ => ⟨by linarith [h.1], by linarith [h.2]⟩,
      fun hnarrow => ?_⟩
    rw [if_pos hnarrow] at hlow
    rw [hlow] at h
    linarith [h.1]

/-- Rounding a fraction at a last place. -/
theorem roundQuotient_scale {numerator denominator m : ℕ} {place : ℤ} (hden : 0 < denominator)
    (hlow : (m - 1 / 2) * (2 : ℚ) ^ place ≤ numerator / denominator)
    (hhigh : (numerator / denominator : ℚ) ≤ (m + 1 / 2) * 2 ^ place)
    (hodd : m % 2 = 1 → (m - 1 / 2) * (2 : ℚ) ^ place < numerator / denominator ∧
      (numerator / denominator : ℚ) < (m + 1 / 2) * 2 ^ place) :
    roundQuotient (scale 2 (-place) numerator) (scale 2 place denominator) = m := by
  have hu : (0 : ℚ) < 2 ^ place := by positivity
  refine roundQuotient_eq (scale_pos two_ne_zero _ hden) ?_ ?_ (fun hm => ?_) <;> rw [scaled_eq]
  · exact (le_div_iff₀ hu).mpr hlow
  · exact (div_le_iff₀ hu).mpr hhigh
  · exact ⟨(lt_div_iff₀ hu).mpr (hodd hm).1, (div_lt_iff₀ hu).mpr (hodd hm).2⟩

/-- The last place of a fraction that is not below the full mantissas, or that has the least
exponent. -/
theorem lastPlace_eq {spec : Format} {exponent : ℤ} (hleast : spec.minExponent ≤ exponent)
    {numerator denominator : ℕ} (hnum : 0 < numerator) (hden : 0 < denominator)
    (hhigh : (numerator / denominator : ℚ) < 2 ^ spec.mantissaBits * 2 ^ exponent)
    (hlow : (2 : ℚ) ^ spec.mantissaBitsWithoutImplicit * 2 ^ exponent ≤ numerator / denominator ∨
      exponent = spec.minExponent) :
    lastPlace spec numerator denominator = exponent := by
  have hbits : spec.mantissaBits = spec.mantissaBitsWithoutImplicit + 1 := Nat.add_comm ..
  rw [two_pow_mul_zpow] at hhigh hlow
  unfold lastPlace
  by_cases hfull : (2 : ℚ) ^ (spec.mantissaBitsWithoutImplicit + exponent) ≤ numerator / denominator
  · have hbinade : binade numerator denominator = spec.mantissaBits + exponent := by
      refine binade_eq hnum hden ?_ hhigh
      rwa [show (spec.mantissaBits + exponent - 1 : ℤ) = spec.mantissaBitsWithoutImplicit + exponent
        by omega]
    omega
  · have hbinade := binade_le hnum hden (not_le.mp hfull)
    have heq := hlow.resolve_left hfull
    omega

theorem canonical_of_lt {spec : Format} (sign : Sign) {mantissa : ℕ} (exponent : ℤ)
    (hpos : 0 < mantissa) (hlt : mantissa < 2 ^ spec.mantissaBits) :
    canonical spec sign mantissa exponent = .finite sign mantissa exponent hpos := by
  have hne : mantissa ≠ Nat.pow 2 spec.mantissaBits := hlt.ne
  rw [canonical, if_neg hne, dif_pos hpos]

theorem canonical_full (spec : Format) (sign : Sign) (exponent : ℤ) :
    canonical spec sign (2 ^ spec.mantissaBits) exponent =
      .finite sign (2 ^ spec.mantissaBitsWithoutImplicit) (exponent + 1) (Nat.two_pow_pos _) :=
  if_pos rfl

/-- Just below a power of two a fraction has one more place than the power, and is rounded up. -/
theorem roundRatio_below {spec : Format} (sign : Sign) {exponent : ℤ}
    (hleast : spec.minExponent < exponent) {numerator denominator : ℕ} (hnum : 0 < numerator)
    (hden : 0 < denominator)
    (hlow : ((2 : ℚ) ^ spec.mantissaBitsWithoutImplicit - 1 / 4) * 2 ^ exponent ≤
      numerator / denominator)
    (hhigh : (numerator / denominator : ℚ) <
      2 ^ spec.mantissaBitsWithoutImplicit * 2 ^ exponent) :
    roundRatio spec sign numerator denominator =
      .finite sign (2 ^ spec.mantissaBitsWithoutImplicit) exponent (Nat.two_pow_pos _) := by
  have htop : (2 : ℚ) ^ spec.mantissaBits = 2 * 2 ^ spec.mantissaBitsWithoutImplicit := by
    rw [Format.mantissaBits, pow_add, pow_one]
  have hone : (1 : ℚ) ≤ 2 ^ spec.mantissaBitsWithoutImplicit := one_le_pow₀ one_le_two
  have hhalf : (2 : ℚ) ^ exponent = 2 * 2 ^ (exponent - 1) := by
    rw [← zpow_one_add₀ two_ne_zero, add_sub_cancel]
  have hu : (0 : ℚ) < 2 ^ (exponent - 1) := by positivity
  rw [hhalf] at hlow hhigh
  have hplace : lastPlace spec numerator denominator = exponent - 1 := by
    refine lastPlace_eq (by omega) hnum hden ?_ (Or.inl ?_)
    · rw [htop]
      linarith
    · nlinarith
  have hround : roundQuotient (scale 2 (-(exponent - 1)) numerator)
      (scale 2 (exponent - 1) denominator) = 2 ^ spec.mantissaBits := by
    have heven : 2 ^ spec.mantissaBits % 2 = 0 := by
      rw [Format.mantissaBits, pow_add, pow_one, Nat.mul_mod_right]
    refine roundQuotient_scale hden ?_ ?_ (fun hodd => by omega)
    · rw [Nat.cast_pow, Nat.cast_two, htop]
      linarith
    · rw [Nat.cast_pow, Nat.cast_two, htop]
      nlinarith
  unfold roundRatio
  dsimp only
  rw [hplace, hround, canonical_full]
  simp only [sub_add_cancel]

/-- **Every fraction in the interval of a number is rounded to the number.** -/
theorem roundRatio_eq {spec : Format} (sign : Sign) {mantissa : ℕ} {exponent : ℤ}
    (h : Normalized spec mantissa exponent) {numerator denominator : ℕ} (hnum : 0 < numerator)
    (hden : 0 < denominator)
    (hcontains : (binary spec mantissa exponent).Contains (numerator / denominator)) :
    roundRatio spec sign numerator denominator = .finite sign mantissa exponent h.pos := by
  obtain ⟨hlow, hhigh, hodd, hnarrow⟩ := bounds_of_contains h.pos hcontains
  have hu : (0 : ℚ) < 2 ^ exponent := by positivity
  have hlt : (mantissa : ℚ) + 1 ≤ 2 ^ spec.mantissaBits := by exact_mod_cast h.lt
  by_cases hbelow : (numerator / denominator : ℚ) <
      2 ^ spec.mantissaBitsWithoutImplicit * 2 ^ exponent ∧ spec.minExponent < exponent
  · -- only the power of two itself reaches below the full mantissas
    obtain ⟨hbelow, hleast⟩ := hbelow
    obtain rfl : mantissa = 2 ^ spec.mantissaBitsWithoutImplicit := by
      refine le_antisymm ?_ (h.full.resolve_right (by omega))
      have hcast : (mantissa : ℚ) < 2 ^ spec.mantissaBitsWithoutImplicit + 1 := by nlinarith
      exact Nat.lt_succ_iff.mp (by exact_mod_cast hcast)
    refine roundRatio_below sign hleast hnum hden ?_ hbelow
    have hquarter := hnarrow (by simp [binary, hleast])
    rwa [Nat.cast_pow, Nat.cast_two] at hquarter
  · have hplace : lastPlace spec numerator denominator = exponent := by
      refine lastPlace_eq h.least hnum hden (by nlinarith) ?_
      rw [not_and_or, not_lt, not_lt] at hbelow
      exact hbelow.imp_right (fun hle => le_antisymm hle h.least)
    unfold roundRatio
    dsimp only
    rw [hplace, roundQuotient_scale hden hlow hhigh hodd, canonical_of_lt sign exponent h.pos h.lt]

end Symbology.Number
