import Symbology.Proofs.Number.Rounding

set_option autoImplicit false

/-! # The shortest decimal reads back

The decimal that a number is printed through lies in the interval of the number
(`Decimal.Binary.shortest_contains`), so it is rounded to the number again
(`Decimal.round_eq`). -/

namespace Symbology.Decimal

open Float.Model (UnpackedFloat Format)
open Float.Model.UnpackedFloat (Sign)
open Symbology.Number

/-- The number that a decimal stands for. -/
def value (d : Decimal) : ℚ :=
  d.coefficient * (10 : ℚ) ^ d.exponent

/-! ## Printing -/

namespace Binary

variable {tie : Tie} {b : Binary}

/-- What is found on a grid lies in the interval. -/
theorem rounds_of_onGrid {g : ℤ} {c : ℕ} (h : b.onGrid tie g = some c) : b.rounds g c = true := by
  unfold onGrid at h
  dsimp only at h
  split at h
  · contradiction
  next hbelow _ =>
    obtain rfl := Option.some.inj h
    exact hbelow
  next _ habove =>
    obtain rfl := Option.some.inj h
    exact habove
  next hbelow habove =>
    -- on a tie either neighbor will do
    have heither : c = 4 * b.mantissa * b.quarter g / b.step g ∨
        c = 4 * b.mantissa * b.quarter g / b.step g + 1 := by
      split at h
      · exact Or.inl (Option.some.inj h).symm
      · split at h
        · exact Or.inr (Option.some.inj h).symm
        · split at h
          · exact Or.inr (Option.some.inj h).symm
          · obtain rfl := Option.some.inj h
            split
            · exact Or.inl rfl
            · exact Or.inr rfl
    rcases heither with rfl | rfl
    · exact hbelow
    · exact habove

theorem value_exactDecimal (b : Binary) : b.exactDecimal.value = b.mantissa * 2 ^ b.exponent := by
  unfold exactDecimal
  split
  next hexp =>
    obtain ⟨n, hn⟩ := Int.eq_ofNat_of_zero_le hexp
    simp [value, scale, hn]
  next hexp =>
    obtain ⟨n, hn⟩ := Int.eq_negSucc_of_lt_zero (not_le.mp hexp)
    have hten : (10 : ℚ) ^ (n + 1) = 5 ^ (n + 1) * 2 ^ (n + 1) := by
      rw [← mul_pow]
      norm_num
    simp only [value, scale, hn, Int.neg_negSucc, Int.toNat_natCast, zpow_negSucc, Nat.pow_eq,
      Nat.cast_mul, Nat.cast_pow]
    rw [hten]
    field_simp
    push_cast
    rfl

/-- A number lies in its own interval. -/
theorem contains_self (hpos : 0 < b.mantissa) : b.Contains (b.mantissa * 2 ^ b.exponent) := by
  have hu : (0 : ℚ) < 2 ^ (b.exponent - 2) := by positivity
  have hunit : (b.mantissa : ℚ) * 2 ^ b.exponent =
      ((4 * b.mantissa : ℕ) : ℚ) * 2 ^ (b.exponent - 2) := by
    rw [zpow_sub₀ two_ne_zero]
    push_cast
    ring
  have hlow : b.low < 4 * b.mantissa := by
    unfold low
    split <;> omega
  have hhigh : 4 * b.mantissa < b.high := by
    unfold high
    omega
  have hlow' : (b.low : ℚ) * 2 ^ (b.exponent - 2) < b.mantissa * 2 ^ b.exponent := by
    rw [hunit, mul_lt_mul_iff_left₀ hu]
    exact_mod_cast hlow
  have hhigh' : (b.mantissa : ℚ) * 2 ^ b.exponent < b.high * 2 ^ (b.exponent - 2) := by
    rw [hunit, mul_lt_mul_iff_left₀ hu]
    exact_mod_cast hhigh
  unfold Contains
  split
  · exact ⟨hlow'.le, hhigh'.le⟩
  · exact ⟨hlow', hhigh'⟩

/-- **The shortest decimal lies in the interval of the number.** -/
theorem shortest_contains (tie : Tie) (hpos : 0 < b.mantissa) :
    b.Contains (b.shortest tie).value := by
  have hgrids : ∀ grids g, b.Contains (b.firstHit tie grids g).value := by
    intro grids
    induction grids with
    | zero =>
      intro g
      rw [firstHit, value_exactDecimal]
      exact contains_self hpos
    | succ grids ih =>
      intro g
      rw [firstHit]
      split
      next c hc => exact (b.rounds_iff g c).mp (rounds_of_onGrid hc)
      next => exact ih (g - 1)
  exact hgrids 18 b.decade

end Binary

/-! ## Reading -/

/-- The place of the decimal point says how great the number is. -/
theorem point_bounds {d : Decimal} (hpos : 0 < d.coefficient) :
    (10 : ℚ) ^ (d.point - 1) ≤ d.value ∧ d.value < 10 ^ d.point := by
  have hlength : 0 < d.digits.length := Nat.length_toDigits_pos
  have hhigh : d.coefficient < 10 ^ d.digits.length :=
    (Nat.length_toDigits_le_iff (by norm_num) hlength).mp le_rfl
  obtain ⟨k, hk⟩ := Nat.exists_eq_add_of_lt hlength
  rw [zero_add] at hk
  have hlow : 10 ^ k ≤ d.coefficient := by
    rcases Nat.eq_zero_or_pos k with rfl | hk'
    · exact hpos
    · -- with one digit less the number would be smaller
      by_contra hlt
      have hshort := (Nat.length_toDigits_le_iff (by norm_num) hk').mpr (not_le.mp hlt)
      have hdigits : d.digits.length ≤ k := hshort
      omega
  have hten : (0 : ℚ) < 10 ^ d.exponent := by positivity
  have hpower : ∀ n : ℕ, (10 : ℚ) ^ ((n : ℤ) + d.exponent) = 10 ^ n * 10 ^ d.exponent := by
    intro n
    rw [zpow_add₀ (by norm_num), zpow_natCast]
  have hbefore : d.point - 1 = k + d.exponent := by
    rw [point, hk]
    push_cast
    ring
  rw [hbefore, point, hpower, hpower, value, mul_le_mul_iff_left₀ hten, mul_lt_mul_iff_left₀ hten]
  exact ⟨by exact_mod_cast hlow, by exact_mod_cast hhigh⟩

/-- Zero lies in the interval of no number. -/
theorem coefficient_pos_of_contains {spec : Format} {mantissa : ℕ} {exponent : ℤ}
    (hpos : 0 < mantissa) {d : Decimal}
    (hcontains : (binary spec mantissa exponent).Contains d.value) : 0 < d.coefficient := by
  obtain ⟨hlow, _⟩ := bounds_of_contains hpos hcontains
  have hone : (1 : ℚ) ≤ mantissa := by exact_mod_cast hpos
  have hhalf : (0 : ℚ) < mantissa - 1 / 2 := by linarith
  rw [Nat.pos_iff_ne_zero]
  intro hzero
  rw [value, hzero, Nat.cast_zero, zero_mul] at hlow
  exact absurd hlow (not_le.mpr (by positivity))

theorem two_pow_lt_ten_pow : (2 : ℚ) ^ (1201 : ℤ) < 10 ^ (400 : ℤ) := by
  calc (2 : ℚ) ^ (1201 : ℤ) ≤ 2 ^ ((13 * 100 : ℕ) : ℤ) := by gcongr <;> norm_num
    _ = (2 ^ 13) ^ 100 := by rw [zpow_natCast, pow_mul]
    _ < (10 ^ 4) ^ 100 := by gcongr; norm_num
    _ = 10 ^ (400 : ℤ) := by rw [← pow_mul, ← zpow_natCast]; rfl

/-- A number between the powers of two at the ends of the formats neither counts as zero nor as
infinite. -/
theorem point_mem {d : Decimal} (hpos : 0 < d.coefficient) (hlow : (2 : ℚ) ^ (-1201 : ℤ) ≤ d.value)
    (hhigh : d.value < (2 : ℚ) ^ (1200 : ℤ)) : -400 ≤ d.point ∧ d.point ≤ 400 := by
  obtain ⟨hpoint_low, hpoint_high⟩ := point_bounds hpos
  constructor
  · by_contra hsmall
    have hten : (10 : ℚ) ^ d.point ≤ 10 ^ (-400 : ℤ) := by
      gcongr
      · norm_num
      · omega
    have hpowers : (10 : ℚ) ^ (-400 : ℤ) < 2 ^ (-1201 : ℤ) := by
      rw [zpow_neg, zpow_neg]
      exact inv_strictAnti₀ (by positivity) two_pow_lt_ten_pow
    exact absurd (hlow.trans hpoint_high.le) (not_le.mpr (hten.trans_lt hpowers))
  · by_contra hgreat
    have hten : (10 : ℚ) ^ (400 : ℤ) ≤ 10 ^ (d.point - 1) := by
      gcongr
      · norm_num
      · omega
    have hpowers : (2 : ℚ) ^ (1200 : ℤ) ≤ 2 ^ (1201 : ℤ) := by gcongr <;> norm_num
    exact absurd (hten.trans hpoint_low)
      (not_le.mpr (hhigh.trans (hpowers.trans_lt two_pow_lt_ten_pow)))

/-- The intervals of the numbers of a format lie between the powers of two at its ends. -/
theorem value_mem_of_contains {spec : Format} {mantissa : ℕ} {exponent : ℤ}
    (h : Normalized spec mantissa exponent) (hleast : -1200 ≤ exponent)
    (hgreatest : exponent + spec.mantissaBits ≤ 1200) {x : ℚ}
    (hcontains : (binary spec mantissa exponent).Contains x) :
    (2 : ℚ) ^ (-1201 : ℤ) ≤ x ∧ x < (2 : ℚ) ^ (1200 : ℤ) := by
  obtain ⟨hlow, hhigh, _⟩ := bounds_of_contains h.pos hcontains
  have hone : (1 : ℚ) ≤ mantissa := by exact_mod_cast h.pos
  have hlt : (mantissa : ℚ) + 1 ≤ 2 ^ spec.mantissaBits := by exact_mod_cast h.lt
  constructor
  · calc (2 : ℚ) ^ (-1201 : ℤ) ≤ 2 ^ (exponent - 1) := by
          gcongr
          · norm_num
          · omega
      _ = 1 / 2 * 2 ^ exponent := by rw [zpow_sub_one₀ two_ne_zero]; ring
      _ ≤ (mantissa - 1 / 2) * 2 ^ exponent := by gcongr; linarith
      _ ≤ x := hlow
  · calc x ≤ (mantissa + 1 / 2) * 2 ^ exponent := hhigh
      _ < 2 ^ spec.mantissaBits * 2 ^ exponent := by gcongr; linarith
      _ = 2 ^ (exponent + spec.mantissaBits) := by
          rw [zpow_add₀ two_ne_zero, zpow_natCast, mul_comm]
      _ ≤ 2 ^ (1200 : ℤ) := by gcongr; norm_num

/-- **What lies in the interval of a number is read as that number.** The exponents of the formats
at hand are far from where a decimal counts as zero or infinite. -/
theorem round_eq {spec : Format} (sign : Sign) {mantissa : ℕ} {exponent : ℤ}
    (h : Normalized spec mantissa exponent) (hleast : -1200 ≤ exponent)
    (hgreatest : exponent + spec.mantissaBits ≤ 1200) {d : Decimal}
    (hcontains : (binary spec mantissa exponent).Contains d.value) :
    d.round spec sign = .finite sign mantissa exponent h.pos := by
  have hpos : 0 < d.coefficient := coefficient_pos_of_contains h.pos hcontains
  obtain ⟨hlow, hhigh⟩ := value_mem_of_contains h hleast hgreatest hcontains
  obtain ⟨hsmall, hgreat⟩ := point_mem hpos hlow hhigh
  have hratio : (scale 10 d.exponent d.coefficient : ℚ) / scale 10 (-d.exponent) 1 = d.value := by
    have h := scale_div_scale (by norm_num : 10 ≠ 0) d.exponent d.coefficient 1
    rw [h, value]
    norm_num
  unfold Decimal.round
  rw [if_neg (by omega), if_neg (by omega)]
  refine roundRatio_eq sign h (scale_pos (by norm_num) _ hpos) (scale_pos (by norm_num) _ one_pos) ?_
  rw [hratio]
  exact hcontains

end Symbology.Decimal
