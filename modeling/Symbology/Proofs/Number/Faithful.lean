import Symbology.Proofs.Number.Packing

set_option autoImplicit false

/-! # Faithful rounding

What a fraction is rounded to is never separated from the fraction by another number of the format:
a number that is at least the fraction is at least the result, and a number that is at most the
fraction is at most the result (`Rounds`). A mantissa is rounded faithfully if it is one of the
whole numbers next to the fraction, counted in last places (`rounds_canonical`). So rounding keeps
every bound that the format can express, and a result stays in the range of the format if the
fraction does (`Rounds.unpack_pack`). -/

namespace Symbology.Number

open Float.Model (UnpackedFloat Format)
open Float.Model.UnpackedFloat (Sign)

variable {spec : Format} {sign : Sign} {mantissa : ℕ} {exponent : ℤ} {x r : ℚ}

/-! ## Values -/

/-- The value of a finite number. -/
def value : UnpackedFloat → ℚ
  | .finite sign mantissa exponent _ => (sign.apply mantissa : ℤ) * (2 : ℚ) ^ exponent
  | _ => 0

/-- The number has a mantissa and an exponent in the format, except that the exponent may be too
great. -/
def Representable (spec : Format) (r : ℚ) : Prop :=
  ∃ (mantissa : ℕ) (exponent : ℤ), mantissa < 2 ^ spec.mantissaBits ∧
    spec.minExponent ≤ exponent ∧ |r| = mantissa * (2 : ℚ) ^ exponent

theorem Representable.neg (h : Representable spec r) : Representable spec (-r) := by
  obtain ⟨mantissa, exponent, hlt, hleast, hr⟩ := h
  exact ⟨mantissa, exponent, hlt, hleast, by rw [abs_neg, hr]⟩

theorem abs_value_finite (sign : Sign) (mantissa : ℕ) (exponent : ℤ) (hpos : 0 < mantissa) :
    |value (.finite sign mantissa exponent hpos)| = mantissa * (2 : ℚ) ^ exponent := by
  have hnonneg : (0 : ℚ) ≤ mantissa * (2 : ℚ) ^ exponent := by positivity
  cases sign <;> simp [value, Sign.apply, abs_of_nonneg hnonneg]

theorem value_neg (u : UnpackedFloat) : value u.neg = -value u := by
  cases u with
  | finite sign mantissa exponent hpos =>
    cases sign with
    | negative =>
      change ((mantissa : ℤ) : ℚ) * 2 ^ exponent = -(((-mantissa : ℤ) : ℚ) * 2 ^ exponent)
      push_cast
      ring
    | positive =>
      change ((-mantissa : ℤ) : ℚ) * 2 ^ exponent = -(((mantissa : ℤ) : ℚ) * 2 ^ exponent)
      push_cast
      ring
  | _ => simp [UnpackedFloat.neg, value]

/-! ## Whole numbers next to a fraction -/

/-- The whole number is next to the fraction, and is the fraction itself if that is whole. -/
structure Adjacent (n : ℕ) (x : ℚ) : Prop where
  lt_add_one : (n : ℚ) < x + 1
  add_one_gt : x < n + 1

theorem Adjacent.le {n k : ℕ} (h : Adjacent n x) (hk : x ≤ k) : n ≤ k := by
  have hlt : (n : ℚ) < k + 1 := h.lt_add_one.trans_le (by linarith)
  exact Nat.lt_succ_iff.mp (by exact_mod_cast hlt)

theorem Adjacent.ge {n k : ℕ} (h : Adjacent n x) (hk : k ≤ x) : k ≤ n := by
  have hlt : (k : ℚ) < n + 1 := hk.trans_lt h.add_one_gt
  exact Nat.lt_succ_iff.mp (by exact_mod_cast hlt)

/-- What is rounded up is not whole. -/
theorem adjacent_succ {n : ℕ} (hlt : (n : ℚ) < x) (hgt : x < n + 1) : Adjacent (n + 1) x :=
  ⟨by push_cast; linarith, by push_cast; linarith⟩

theorem adjacent_self {n : ℕ} (hle : (n : ℚ) ≤ x) (hgt : x < n + 1) : Adjacent n x :=
  ⟨by linarith, hgt⟩

section Quotient

variable (numerator : ℕ) {denominator : ℕ} (hden : 0 < denominator)

include hden

theorem div_lt_whole_add_one :
    (numerator / denominator : ℚ) < (numerator / denominator : ℕ) + 1 := by
  rw [div_lt_iff₀ (Nat.cast_pos.mpr hden), mul_comm]
  exact_mod_cast Nat.lt_mul_div_succ numerator hden

theorem whole_lt_div (hrest : numerator % denominator ≠ 0) :
    ((numerator / denominator : ℕ) : ℚ) < numerator / denominator := by
  have hsplit := Nat.div_add_mod' numerator denominator
  rw [lt_div_iff₀ (Nat.cast_pos.mpr hden)]
  exact_mod_cast (by omega : numerator / denominator * denominator < numerator)

theorem adjacent_roundQuotient :
    Adjacent (roundQuotient numerator denominator) (numerator / denominator) := by
  have hle : ((numerator / denominator : ℕ) : ℚ) ≤ numerator / denominator := Nat.cast_div_le
  have hgt := div_lt_whole_add_one numerator hden
  have hlt := whole_lt_div numerator hden
  unfold roundQuotient
  dsimp only
  generalize numerator / denominator = quotient at *
  split
  · exact adjacent_self hle hgt
  · split
    · exact adjacent_succ (hlt (by omega)) hgt
    · rcases Nat.mod_two_eq_zero_or_one quotient with heven | hodd
      · rw [heven]
        exact adjacent_self hle hgt
      · rw [hodd]
        exact adjacent_succ (hlt (by omega)) hgt

end Quotient

/-! ## Faithful rounding -/

/-- **The number is a faithful rounding of a fraction**: it is finite, and no number of the format
lies between it and the fraction. -/
structure Rounds (spec : Format) (x : ℚ) (u : UnpackedFloat) : Prop where
  finite : u.isFinite = true
  canonical : IsCanonical spec u
  le : ∀ r, Representable spec r → x ≤ r → value u ≤ r
  ge : ∀ r, Representable spec r → r ≤ x → r ≤ value u

theorem rounds_self {u : UnpackedFloat} (hfinite : u.isFinite = true)
    (hcanonical : IsCanonical spec u) : Rounds spec (value u) u :=
  ⟨hfinite, hcanonical, fun _ _ h => h, fun _ _ h => h⟩

theorem Rounds.neg {u : UnpackedFloat} (h : Rounds spec x u) : Rounds spec (-x) u.neg where
  finite := by cases u <;> first | rfl | exact h.finite
  canonical := by cases u <;> exact h.canonical
  le r hr hle := by
    rw [value_neg, neg_le]
    exact h.ge (-r) hr.neg (neg_le.mpr hle)
  ge r hr hle := by
    rw [value_neg, le_neg]
    exact h.le (-r) hr.neg (le_neg.mpr hle)

theorem rounds_zero (spec : Format) (sign : Sign) : Rounds spec 0 (.zero sign) :=
  ⟨rfl, trivial, fun _ _ h => h, fun _ _ h => h⟩

/-- A number with a greater exponent is a whole number of last places. -/
theorem exists_whole_places {place : ℤ} (h : place ≤ exponent) (mantissa : ℕ) :
    ∃ k : ℕ, mantissa * (2 : ℚ) ^ exponent = k * 2 ^ place := by
  obtain ⟨n, rfl⟩ := Int.le.dest h
  refine ⟨mantissa * 2 ^ n, ?_⟩
  push_cast
  rw [zpow_add₀ two_ne_zero, zpow_natCast]
  ring

/-- A number with a lower exponent is below the numbers with all digits. -/
theorem lt_of_exponent_lt {place : ℤ} (hlt : mantissa < 2 ^ spec.mantissaBits)
    (hplace : exponent < place) :
    mantissa * (2 : ℚ) ^ exponent < 2 ^ spec.mantissaBitsWithoutImplicit * 2 ^ place := by
  have hbits := mantissaBits_eq spec
  have hcast : (mantissa : ℚ) < 2 ^ spec.mantissaBits := by exact_mod_cast hlt
  calc mantissa * (2 : ℚ) ^ exponent
      < 2 ^ spec.mantissaBits * 2 ^ exponent := mul_lt_mul_of_pos_right hcast (by positivity)
    _ = 2 ^ (spec.mantissaBits + exponent : ℤ) := two_pow_mul_zpow ..
    _ ≤ 2 ^ (spec.mantissaBitsWithoutImplicit + place : ℤ) :=
        zpow_le_zpow_right₀ one_le_two (by omega)
    _ = 2 ^ spec.mantissaBitsWithoutImplicit * 2 ^ place := (two_pow_mul_zpow ..).symm

/-- Bringing a mantissa to its canonical form keeps the number. -/
theorem value_canonical (spec : Format) (sign : Sign) (mantissa : ℕ) (exponent : ℤ) :
    (canonical spec sign mantissa exponent).isFinite = true ∧
      value (canonical spec sign mantissa exponent) =
        (sign.apply mantissa : ℤ) * (2 : ℚ) ^ exponent := by
  unfold canonical
  split
  next hfull =>
    refine ⟨rfl, ?_⟩
    have hbits : (2 : ℕ) ^ spec.mantissaBits = 2 ^ spec.mantissaBitsWithoutImplicit * 2 := by
      rw [Format.mantissaBits, add_comm, pow_succ]
    rw [Nat.pow_eq] at hfull
    rw [hfull, hbits, value, zpow_add_one₀ two_ne_zero]
    cases sign <;> simp [Sign.apply] <;> ring
  · split
    · exact ⟨rfl, rfl⟩
    next hzero =>
      obtain rfl : mantissa = 0 := Nat.eq_zero_of_not_pos hzero
      exact ⟨rfl, by cases sign <;> simp [value, Sign.apply]⟩

theorem isCanonical_canonical (sign : Sign) (hle : mantissa ≤ 2 ^ spec.mantissaBits)
    (hleast : spec.minExponent ≤ exponent)
    (hfull : 2 ^ spec.mantissaBitsWithoutImplicit ≤ mantissa ∨ exponent = spec.minExponent) :
    IsCanonical spec (canonical spec sign mantissa exponent) := by
  unfold canonical
  split
  · refine ⟨Nat.two_pow_pos _, ?_, by omega, Or.inl le_rfl⟩
    exact Nat.pow_lt_pow_right one_lt_two (by rw [Format.mantissaBits]; omega)
  next hne =>
    split
    next hpos => exact ⟨hpos, lt_of_le_of_ne hle hne, hleast, hfull⟩
    · trivial

/-- **A mantissa next to a fraction is a faithful rounding**, if the fraction has as many digits in
front of the last place as the format. -/
theorem rounds_canonical_positive {n : ℕ} {place : ℤ} (hpos : 0 < x)
    (hadjacent : Adjacent n (x / 2 ^ place)) (hleast : spec.minExponent ≤ place)
    (hhigh : x ≤ 2 ^ spec.mantissaBits * 2 ^ place)
    (hlow : 2 ^ spec.mantissaBitsWithoutImplicit * (2 : ℚ) ^ place ≤ x ∨
      place = spec.minExponent) :
    Rounds spec x (canonical spec .positive n place) := by
  have hplace : (0 : ℚ) < 2 ^ place := by positivity
  have le_whole {k : ℕ} (hk : x ≤ k * 2 ^ place) : n ≤ k :=
    hadjacent.le ((div_le_iff₀ hplace).mpr hk)
  have whole_le {k : ℕ} (hk : k * (2 : ℚ) ^ place ≤ x) : k ≤ n :=
    hadjacent.ge ((le_div_iff₀ hplace).mpr hk)
  have hcanonical : IsCanonical spec (canonical spec .positive n place) := by
    refine isCanonical_canonical _ (le_whole (by exact_mod_cast hhigh)) hleast ?_
    exact hlow.imp_left (fun hfull => whole_le (by exact_mod_cast hfull))
  obtain ⟨hfinite, hvalue⟩ := value_canonical spec .positive n place
  refine ⟨hfinite, hcanonical, fun r hr hle => ?_, fun r hr hle => ?_⟩
  all_goals
    rw [hvalue, Sign.apply, Int.cast_natCast]
    obtain ⟨m, e, hlt, hleast', habs⟩ := hr
  · rw [abs_of_pos (hpos.trans_le hle)] at habs
    rw [habs] at hle ⊢
    by_cases hexponent : place ≤ e
    · obtain ⟨k, hk⟩ := exists_whole_places hexponent m
      rw [hk] at hle ⊢
      exact mul_le_mul_of_nonneg_right (Nat.cast_le.mpr (le_whole hle)) hplace.le
    · have hsmall := lt_of_exponent_lt hlt (not_le.mp hexponent)
      exact absurd (hsmall.trans_le (hlow.resolve_right (by omega))) (not_lt.mpr hle)
  · rcases le_or_gt r 0 with hneg | hpos'
    · exact hneg.trans (by positivity)
    rw [abs_of_pos hpos'] at habs
    rw [habs] at hle ⊢
    by_cases hexponent : place ≤ e
    · obtain ⟨k, hk⟩ := exists_whole_places hexponent m
      rw [hk] at hle ⊢
      exact mul_le_mul_of_nonneg_right (Nat.cast_le.mpr (whole_le hle)) hplace.le
    · have hsmall := lt_of_exponent_lt hlt (not_le.mp hexponent)
      have hfull : 2 ^ spec.mantissaBitsWithoutImplicit ≤ n :=
        whole_le (by exact_mod_cast hlow.resolve_right (by omega))
      refine hsmall.le.trans (mul_le_mul_of_nonneg_right ?_ hplace.le)
      exact_mod_cast hfull

/-- A fraction with a sign. -/
def signed (sign : Sign) (x : ℚ) : ℚ :=
  match sign with
  | .positive => x
  | .negative => -x

theorem canonical_negative (spec : Format) (mantissa : ℕ) (exponent : ℤ) :
    canonical spec .negative mantissa exponent =
      (canonical spec .positive mantissa exponent).neg := by
  unfold canonical
  split
  · rfl
  · split <;> rfl

theorem rounds_canonical (sign : Sign) {n : ℕ} {place : ℤ} (hpos : 0 < x)
    (hadjacent : Adjacent n (x / 2 ^ place)) (hleast : spec.minExponent ≤ place)
    (hhigh : x ≤ 2 ^ spec.mantissaBits * 2 ^ place)
    (hlow : 2 ^ spec.mantissaBitsWithoutImplicit * (2 : ℚ) ^ place ≤ x ∨
      place = spec.minExponent) :
    Rounds spec (signed sign x) (canonical spec sign n place) := by
  have h := rounds_canonical_positive hpos hadjacent hleast hhigh hlow
  cases sign with
  | positive => exact h
  | negative =>
    rw [canonical_negative]
    exact h.neg

/-! ## Fractions -/

theorem roundRatio_zero (spec : Format) (sign : Sign) (denominator : ℕ) :
    roundRatio spec sign 0 denominator = .zero sign := by
  have hne : ¬(0 : ℕ) = 2 ^ spec.mantissaBits := (Nat.two_pow_pos _).ne
  simp [roundRatio, canonical, scale, roundQuotient, hne]

/-- **A fraction is rounded faithfully.** -/
theorem rounds_roundRatio (spec : Format) (sign : Sign) (numerator : ℕ) {denominator : ℕ}
    (hden : 0 < denominator) :
    Rounds spec (signed sign (numerator / denominator))
      (roundRatio spec sign numerator denominator) := by
  rcases Nat.eq_zero_or_pos numerator with rfl | hnum
  · rw [roundRatio_zero]
    cases sign <;> simpa [signed] using rounds_zero spec _
  have hpos : (0 : ℚ) < numerator / denominator :=
    div_pos (Nat.cast_pos.mpr hnum) (Nat.cast_pos.mpr hden)
  have hadjacent := adjacent_roundQuotient
    (scale 2 (-lastPlace spec numerator denominator) numerator)
    (scale_pos two_ne_zero (lastPlace spec numerator denominator) hden)
  rw [scaled_eq] at hadjacent
  obtain ⟨hbelow, habove⟩ := binade_spec hnum hden
  have hbits := mantissaBits_eq spec
  refine rounds_canonical sign hpos hadjacent (le_max_right _ _) ?_ ?_
  · have hplace : binade numerator denominator - spec.mantissaBits ≤
      lastPlace spec numerator denominator := le_max_left _ _
    rw [two_pow_mul_zpow]
    exact habove.le.trans (zpow_le_zpow_right₀ one_le_two (by omega))
  · rcases max_choice (binade numerator denominator - spec.mantissaBits) spec.minExponent with
      hplace | hplace
    · left
      refine le_trans (le_of_eq ?_) hbelow
      rw [lastPlace, hplace, two_pow_mul_zpow]
      congr 1
      omega
    · exact Or.inr hplace

/-! ## The range of a format -/

/-- The greatest number of the format. -/
def greatest (spec : Format) : ℚ :=
  ((2 ^ spec.mantissaBits - 1 : ℕ) : ℚ) *
    2 ^ ((2 : ℤ) ^ (spec.exponentBits - 1) - spec.mantissaBits)

theorem representable_greatest (hspec : 2 ≤ spec.exponentBits) :
    Representable spec (greatest spec) := by
  have hhalf := two_le_half hspec
  have hleast := minExponent_eq spec
  have hpos := Nat.two_pow_pos spec.mantissaBits
  refine ⟨2 ^ spec.mantissaBits - 1, 2 ^ (spec.exponentBits - 1) - spec.mantissaBits, by omega,
    by omega, abs_of_nonneg ?_⟩
  exact mul_nonneg (Nat.cast_nonneg _) (zpow_nonneg zero_le_two _)

/-- A number that is at most the greatest one has an exponent of the format. -/
theorem inRange_of_le {u : UnpackedFloat} (hspec : 2 ≤ spec.exponentBits)
    (hcanonical : IsCanonical spec u) (h : |value u| ≤ greatest spec) : InRange spec u := by
  cases u with
  | finite sign mantissa exponent hpos =>
    have hnormal : Normalized spec mantissa exponent := hcanonical
    have hhalf := two_le_half hspec
    have hleast := minExponent_eq spec
    have hbits := mantissaBits_eq spec
    by_contra hrange
    have hgreat : (2 : ℤ) ^ (spec.exponentBits - 1) < exponent + spec.mantissaBits :=
      not_le.mp hrange
    have hfull : (2 : ℚ) ^ spec.mantissaBitsWithoutImplicit ≤ mantissa := by
      exact_mod_cast hnormal.full.resolve_right (by omega)
    rw [abs_value_finite] at h
    refine absurd h (not_le.mpr ?_)
    calc greatest spec
        < 2 ^ spec.mantissaBits * 2 ^ ((2 : ℤ) ^ (spec.exponentBits - 1) - spec.mantissaBits) := by
          have hcast : ((2 ^ spec.mantissaBits - 1 : ℕ) : ℚ) < 2 ^ spec.mantissaBits := by
            have hpos := Nat.two_pow_pos spec.mantissaBits
            exact_mod_cast Nat.sub_lt hpos one_pos
          exact mul_lt_mul_of_pos_right hcast (by positivity)
      _ = 2 ^ ((2 : ℤ) ^ (spec.exponentBits - 1)) := by
          rw [two_pow_mul_zpow, add_sub_cancel]
      _ ≤ 2 ^ (spec.mantissaBitsWithoutImplicit + exponent : ℤ) :=
          zpow_le_zpow_right₀ one_le_two (by omega)
      _ = 2 ^ spec.mantissaBitsWithoutImplicit * 2 ^ exponent := (two_pow_mul_zpow ..).symm
      _ ≤ mantissa * 2 ^ exponent := mul_le_mul_of_nonneg_right hfull (by positivity)
  | _ => trivial

/-- The rounding of a fraction lies between all bounds that the format can express. -/
theorem Rounds.bounded {u : UnpackedFloat} (h : Rounds spec x u) (hr : Representable spec r)
    (hx : |x| ≤ r) : |value u| ≤ r := by
  obtain ⟨hlow, hhigh⟩ := abs_le.mp hx
  exact abs_le.mpr ⟨h.ge (-r) hr.neg hlow, h.le r hr hhigh⟩

/-- **A rounding in the range of the format is packed as it is.** -/
theorem Rounds.unpack_pack {u : UnpackedFloat} (hspec : 2 ≤ spec.exponentBits)
    (h : Rounds spec x u) (hx : |x| ≤ greatest spec) :
    UnpackedFloat.unpack spec (UnpackedFloat.pack spec u) = u := by
  have hrange := inRange_of_le hspec h.canonical
    (h.bounded (representable_greatest hspec) hx)
  refine Number.unpack_pack hspec h.canonical hrange ?_
  have hfinite := h.finite
  cases u <;> first | rfl | contradiction

/-- A fraction in the range of the format is rounded to a finite number. -/
theorem isFinite_ofRatio (sign : Sign) (numerator : ℕ) {denominator : ℕ} (hden : 0 < denominator)
    (h : (numerator / denominator : ℚ) ≤ greatest .binary64) :
    (ofRatio sign numerator denominator).isFinite = true := by
  have hrounds := rounds_roundRatio .binary64 sign numerator hden
  have habs : |signed sign (numerator / denominator)| ≤ greatest .binary64 := by
    have hnonneg : (0 : ℚ) ≤ numerator / denominator := by positivity
    cases sign <;> simpa [signed, abs_of_nonneg hnonneg] using h
  change (UnpackedFloat.unpack .binary64 (UnpackedFloat.pack .binary64 _)).isFinite = true
  rw [hrounds.unpack_pack (by decide) habs]
  exact hrounds.finite

theorem isFinite_ofInt {n : ℤ} (h : n.natAbs ≤ 2 ^ 64) : (ofInt n).isFinite = true := by
  have hgreatest : (2 : ℚ) ^ 64 ≤ greatest .binary64 :=
    calc (2 : ℚ) ^ 64 = 1 * 2 ^ (64 : ℤ) := by norm_num
      _ ≤ greatest .binary64 :=
        mul_le_mul (by norm_num [Format.binary64, Format.mantissaBits])
          (zpow_le_zpow_right₀ one_le_two (by decide)) (by positivity) (Nat.cast_nonneg _)
  cases n with
  | ofNat n =>
    refine isFinite_ofRatio .positive n one_pos (le_trans ?_ hgreatest)
    rw [Nat.cast_one, div_one]
    exact_mod_cast h
  | negSucc n =>
    refine isFinite_ofRatio .negative (n + 1) one_pos (le_trans ?_ hgreatest)
    rw [Nat.cast_one, div_one]
    exact_mod_cast h

end Symbology.Number
