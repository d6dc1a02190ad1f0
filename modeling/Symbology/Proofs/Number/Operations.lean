import Symbology.Proofs.Number.Faithful

set_option autoImplicit false

/-! # Arithmetic is rounded faithfully

The four operations compute a mantissa that is cut off, with two more bits that tell whether
anything is left (`Extends`), and round it. The mantissa that they arrive at is next to the exact
result, so sums, differences, products and quotients of finite numbers are faithful roundings of the
exact ones (`rounds_add`, `rounds_sub`, `rounds_mul`, `rounds_div`). -/

namespace Symbology.Number

open Float.Model (UnpackedFloat Format totalExponent)
open Float.Model.UnpackedFloat (Sign Accuracy ExtendedMantissa)

variable {spec : Format} {sign : Sign} {mantissa : ℕ} {exponent : ℤ} {x y : ℚ}

/-! ## Mantissas that are cut off -/

/-- The mantissa is the whole part of the fraction, and the two bits tell whether there is more. -/
structure Extends (em : ExtendedMantissa) (y : ℚ) : Prop where
  le : (em.mantissa : ℚ) ≤ y
  lt_add_one : y < em.mantissa + 1
  rest : em.roundBit = true ∨ em.stickyBit = true → (em.mantissa : ℚ) < y

/-- Taking off a digit halves the fraction. -/
theorem Extends.shiftRightOne {em : ExtendedMantissa} (h : Extends em y) :
    Extends em.shiftRightOne (y / 2) := by
  obtain ⟨hle, hlt, hrest⟩ := h
  have hsplit : (em.mantissa : ℚ) = 2 * (em.mantissa / 2 : ℕ) + (em.mantissa % 2 : ℕ) := by
    exact_mod_cast (Nat.div_add_mod em.mantissa 2).symm
  have hdigit : ((em.mantissa % 2 : ℕ) : ℚ) ≤ 1 := by
    exact_mod_cast Nat.lt_succ_iff.mp (Nat.mod_lt em.mantissa two_pos)
  have hnonneg : (0 : ℚ) ≤ (em.mantissa % 2 : ℕ) := Nat.cast_nonneg _
  refine ⟨?_, ?_, fun hbits => ?_⟩
  · change ((em.mantissa / 2 : ℕ) : ℚ) ≤ y / 2
    linarith
  · change y / 2 < ((em.mantissa / 2 : ℕ) : ℚ) + 1
    linarith
  · change ((em.mantissa / 2 : ℕ) : ℚ) < y / 2
    rcases hbits with hround | hsticky
    · -- the digit that is taken off is not zero
      have hodd : em.mantissa % 2 = 1 := by
        have hne : em.mantissa % 2 ≠ 0 := bne_iff_ne.mp hround
        omega
      rw [hodd, Nat.cast_one] at hsplit
      linarith
    · have hless := hrest (Bool.or_eq_true_iff.mp hsticky)
      linarith

theorem Extends.shiftRight {em : ExtendedMantissa} (h : Extends em y) (n : ℕ) :
    Extends (em >>> n) (y / 2 ^ n) := by
  change Extends (n.repeat ExtendedMantissa.shiftRightOne em) _
  induction n with
  | zero => simpa [Nat.repeat] using h
  | succ n ih =>
    rw [Nat.repeat, pow_succ, ← div_div]
    exact ih.shiftRightOne

/-- Only a mantissa with something left is rounded up. -/
theorem Extends.adjacent {em : ExtendedMantissa} (h : Extends em y) :
    Adjacent em.roundedMantissa y := by
  obtain ⟨hle, hlt, hrest⟩ := h
  rcases em with ⟨m, _ | _, _ | _⟩
  · exact adjacent_self hle hlt
  · exact adjacent_self hle hlt
  · -- a tie goes to the even mantissa
    change Adjacent (m + m % 2) y
    rcases Nat.mod_two_eq_zero_or_one m with heven | hodd
    · rw [heven]
      exact adjacent_self hle hlt
    · rw [hodd]
      exact adjacent_succ (hrest (Or.inl rfl)) hlt
  · exact adjacent_succ (hrest (Or.inl rfl)) hlt

theorem extends_ofMantissaAndAccuracy {accuracy : Accuracy} (hle : (mantissa : ℚ) ≤ y)
    (hlt : y < mantissa + 1) (hrest : accuracy ≠ .exact → (mantissa : ℚ) < y) :
    Extends (ExtendedMantissa.ofMantissaAndAccuracy mantissa accuracy) y := by
  rcases accuracy with _ | ⟨_ | _ | _⟩
  · exact ⟨hle, hlt, by simp [ExtendedMantissa.ofMantissaAndAccuracy]⟩
  all_goals exact ⟨hle, hlt, fun _ => hrest (by simp)⟩

/-! ## Rounding -/

/-- A rounded mantissa is shifted once more only if it has a digit too many. -/
theorem shiftToTargetExponent_exact (hle : mantissa ≤ 2 ^ spec.mantissaBits)
    (hleast : spec.minExponent ≤ exponent) :
    UnpackedFloat.shiftToTargetExponent spec mantissa exponent .exact =
      if mantissa = 2 ^ spec.mantissaBits then
        (⟨2 ^ spec.mantissaBitsWithoutImplicit, false, false⟩, exponent + 1)
      else (⟨mantissa, false, false⟩, exponent) := by
  have hbits := mantissaBits_eq spec
  unfold UnpackedFloat.shiftToTargetExponent UnpackedFloat.shiftToExponent
  dsimp only
  split
  next hfull =>
    subst hfull
    have htarget : spec.targetExponent (totalExponent (2 ^ spec.mantissaBits) exponent) =
        exponent + 1 := by
      rw [Format.targetExponent, totalExponent, Nat.log2_two_pow, max_eq_left (by omega)]
      omega
    have hhalf : 2 ^ spec.mantissaBits / 2 = 2 ^ spec.mantissaBitsWithoutImplicit := by
      rw [Format.mantissaBits, pow_add, pow_one, Nat.mul_div_cancel_left _ two_pos]
    have heven : 2 ^ spec.mantissaBits % 2 = 0 := by
      rw [Format.mantissaBits, pow_add, pow_one, Nat.mul_mod_right]
    rw [htarget, add_sub_cancel_left]
    change (ExtendedMantissa.shiftRightOne ⟨2 ^ spec.mantissaBits, false, false⟩, _) = _
    simp [ExtendedMantissa.shiftRightOne, hhalf, heven]
  next hne =>
    have hlog : (mantissa.log2 : ℤ) + 1 ≤ spec.mantissaBits := by
      rcases Nat.eq_zero_or_pos mantissa with rfl | hpos
      · rw [Nat.log2_zero]
        omega
      · have hlt := (Nat.log2_lt hpos.ne').mpr (lt_of_le_of_ne hle hne)
        omega
    have htarget : spec.targetExponent (totalExponent mantissa exponent) ≤ exponent := by
      rw [Format.targetExponent, totalExponent]
      exact max_le (by omega) hleast
    rw [Int.toNat_of_nonpos (by omega)]
    simp [HShiftRight.hShiftRight, Nat.repeat, ExtendedMantissa.ofMantissaAndAccuracy]

/-- A mantissa is rounded where the first shift leaves it. -/
theorem roundWithAccuracy_eq_canonical (sign : Sign) {accuracy : Accuracy} {em : ExtendedMantissa}
    {place : ℤ}
    (hshift : UnpackedFloat.shiftToTargetExponent spec mantissa exponent accuracy = (em, place))
    (hle : em.roundedMantissa ≤ 2 ^ spec.mantissaBits) (hleast : spec.minExponent ≤ place) :
    UnpackedFloat.roundWithAccuracy spec sign mantissa exponent accuracy =
      canonical spec sign em.roundedMantissa place := by
  unfold UnpackedFloat.roundWithAccuracy canonical
  simp only [hshift, shiftToTargetExponent_exact hle hleast, Nat.pow_eq]
  by_cases hfull : em.roundedMantissa = 2 ^ spec.mantissaBits
  · simp [hfull]
  · by_cases hzero : em.roundedMantissa = 0
    · have hne : ¬(0 : ℕ) = 2 ^ spec.mantissaBits := (Nat.two_pow_pos _).ne
      simp [hzero, hne]
    · simp [hfull, hzero, Nat.pos_of_ne_zero hzero]

/-- The digits that are kept of a mantissa reach over the whole fraction. -/
theorem le_of_targetExponent {place : ℤ} (hlt : y < mantissa + 1)
    (htarget : spec.targetExponent (totalExponent mantissa exponent) = place) :
    y * 2 ^ exponent ≤ 2 ^ spec.mantissaBits * 2 ^ place := by
  rw [Format.targetExponent, totalExponent] at htarget
  have hplace : (mantissa.log2 : ℤ) + 1 + exponent - spec.mantissaBits ≤ place :=
    htarget ▸ le_max_left _ _
  have hlog : y < 2 ^ (mantissa.log2 + 1) := by
    refine hlt.trans_le ?_
    exact_mod_cast Nat.lt_log2_self
  calc y * 2 ^ exponent ≤ 2 ^ (mantissa.log2 + 1) * 2 ^ exponent :=
        mul_le_mul_of_nonneg_right hlog.le (by positivity)
    _ = 2 ^ ((mantissa.log2 + 1 : ℕ) + exponent : ℤ) := two_pow_mul_zpow ..
    _ ≤ 2 ^ (spec.mantissaBits + place : ℤ) := zpow_le_zpow_right₀ one_le_two (by push_cast; omega)
    _ = 2 ^ spec.mantissaBits * 2 ^ place := (two_pow_mul_zpow ..).symm

/-- No digit that is kept is idle, unless the last place is the least one. -/
theorem ge_of_targetExponent {place : ℤ} (hpos : 0 < mantissa) (hle : (mantissa : ℚ) ≤ y)
    (htarget : spec.targetExponent (totalExponent mantissa exponent) = place) :
    2 ^ spec.mantissaBitsWithoutImplicit * (2 : ℚ) ^ place ≤ y * 2 ^ exponent ∨
      place = spec.minExponent := by
  have hbits := mantissaBits_eq spec
  rw [Format.targetExponent, totalExponent] at htarget
  rcases max_choice ((mantissa.log2 : ℤ) + 1 + exponent - spec.mantissaBits) spec.minExponent with
    hmax | hmax
  · left
    have hlog : (2 : ℚ) ^ mantissa.log2 ≤ y := by
      refine le_trans ?_ hle
      exact_mod_cast Nat.log2_self_le hpos.ne'
    calc 2 ^ spec.mantissaBitsWithoutImplicit * (2 : ℚ) ^ place
        = 2 ^ (spec.mantissaBitsWithoutImplicit + place : ℤ) := two_pow_mul_zpow ..
      _ = 2 ^ ((mantissa.log2 : ℕ) + exponent : ℤ) := by congr 1; omega
      _ = 2 ^ mantissa.log2 * 2 ^ exponent := (two_pow_mul_zpow ..).symm
      _ ≤ y * 2 ^ exponent := mul_le_mul_of_nonneg_right hlog (by positivity)
  · exact Or.inr (hmax ▸ htarget.symm)

/-- A fraction in terms of a higher place. -/
theorem shifted_eq (exponent : ℤ) (n : ℕ) : y / 2 ^ n = y * 2 ^ exponent / 2 ^ (exponent + n) := by
  rw [zpow_add₀ two_ne_zero, zpow_natCast, mul_div_mul_comm, div_eq_mul_one_div, mul_comm]
  field_simp

/-- A mantissa that is cut off is shifted to the last place of the format and rounded there. -/
theorem roundWithAccuracy_eq (sign : Sign) {accuracy : Accuracy} {n : ℕ} (hle : (mantissa : ℚ) ≤ y)
    (hlt : y < mantissa + 1) (hrest : accuracy ≠ .exact → (mantissa : ℚ) < y)
    (htarget : spec.targetExponent (totalExponent mantissa exponent) = exponent + n) :
    UnpackedFloat.roundWithAccuracy spec sign mantissa exponent accuracy =
      canonical spec sign
        (ExtendedMantissa.ofMantissaAndAccuracy mantissa accuracy >>> n).roundedMantissa
        (exponent + n) := by
  have hshift : UnpackedFloat.shiftToTargetExponent spec mantissa exponent accuracy =
      (ExtendedMantissa.ofMantissaAndAccuracy mantissa accuracy >>> n, exponent + n) := by
    simp [UnpackedFloat.shiftToTargetExponent, UnpackedFloat.shiftToExponent, htarget]
  have hadjacent := ((extends_ofMantissaAndAccuracy hle hlt hrest).shiftRight n).adjacent
  have hrounded : (ExtendedMantissa.ofMantissaAndAccuracy mantissa accuracy >>> n).roundedMantissa ≤
      2 ^ spec.mantissaBits := by
    refine hadjacent.le ?_
    rw [shifted_eq exponent, div_le_iff₀ (by positivity)]
    exact_mod_cast le_of_targetExponent hlt htarget
  exact roundWithAccuracy_eq_canonical sign hshift hrounded (htarget ▸ le_max_right _ _)

/-- **A mantissa that is cut off is rounded faithfully**, if it has all digits of the format or its
last place is below the least one. -/
theorem rounds_roundWithAccuracy (sign : Sign) {accuracy : Accuracy} (hpos : 0 < y)
    (hle : (mantissa : ℚ) ≤ y) (hlt : y < mantissa + 1)
    (hrest : accuracy ≠ .exact → (mantissa : ℚ) < y)
    (hexponent : exponent ≤ spec.targetExponent (totalExponent mantissa exponent))
    (hmantissa : 0 < mantissa ∨ exponent ≤ spec.minExponent) :
    Rounds spec (signed sign (y * 2 ^ exponent))
      (UnpackedFloat.roundWithAccuracy spec sign mantissa exponent accuracy) := by
  generalize htarget : spec.targetExponent (totalExponent mantissa exponent) = place at hexponent
  obtain ⟨n, rfl⟩ := Int.le.dest hexponent
  have hadjacent := ((extends_ofMantissaAndAccuracy hle hlt hrest).shiftRight n).adjacent
  rw [shifted_eq exponent] at hadjacent
  have hlow : 2 ^ spec.mantissaBitsWithoutImplicit * (2 : ℚ) ^ (exponent + n) ≤ y * 2 ^ exponent ∨
      exponent + n = spec.minExponent := by
    rcases Nat.eq_zero_or_pos mantissa with rfl | hfull
    · -- all digits are cut off
      rw [Format.targetExponent, totalExponent, Nat.log2_zero] at htarget
      have hbits := mantissaBits_eq spec
      omega
    · exact ge_of_targetExponent hfull hle htarget
  rw [roundWithAccuracy_eq sign hle hlt hrest htarget]
  exact rounds_canonical sign (by positivity) hadjacent (htarget ▸ le_max_right _ _)
    (le_of_targetExponent hlt htarget) hlow

theorem log2_mul_two_pow (hpos : 0 < mantissa) (n : ℕ) :
    (mantissa * 2 ^ n).log2 = mantissa.log2 + n := by
  have hne : mantissa * 2 ^ n ≠ 0 := (Nat.mul_pos hpos (Nat.two_pow_pos n)).ne'
  refine (Nat.log2_eq_iff hne).mpr ⟨?_, ?_⟩
  · rw [pow_add]
    exact Nat.mul_le_mul_right _ (Nat.log2_self_le hpos.ne')
  · rw [add_right_comm, pow_add]
    exact Nat.mul_lt_mul_of_pos_right Nat.lt_log2_self (Nat.two_pow_pos n)

/-- A mantissa that is not cut off is written with enough digits, and then rounded. -/
theorem round_eq_roundWithAccuracy (spec : Format) (sign : Sign) (hpos : 0 < mantissa)
    (exponent : ℤ) :
    ∃ k n : ℕ, UnpackedFloat.round spec sign mantissa exponent =
        UnpackedFloat.roundWithAccuracy spec sign (mantissa * 2 ^ k) (exponent - k) .exact ∧
      (mantissa : ℚ) * 2 ^ exponent = (mantissa * 2 ^ k : ℕ) * 2 ^ (exponent - k) ∧
      spec.targetExponent (totalExponent (mantissa * 2 ^ k) (exponent - k)) = exponent - k + n ∧
      spec.targetExponent (totalExponent mantissa exponent) = exponent - k + n := by
  unfold UnpackedFloat.round UnpackedFloat.decreaseExponent
  dsimp only
  generalize htarget : spec.targetExponent (totalExponent mantissa exponent) = place
  generalize hamount : (exponent - place).toNat = k
  have htotal : totalExponent (mantissa * 2 ^ k) (exponent - k) =
      totalExponent mantissa exponent := by
    rw [totalExponent, totalExponent, log2_mul_two_pow hpos]
    push_cast
    omega
  refine ⟨k, (place - (exponent - k)).toNat, by rw [Nat.shiftLeft_eq], ?_, ?_, by omega⟩
  · push_cast
    rw [mul_assoc, two_pow_mul_zpow, add_sub_cancel]
  · rw [htotal, htarget]
    omega

/-- A mantissa that is not cut off is rounded faithfully, whatever its exponent. -/
theorem rounds_round (spec : Format) (sign : Sign) (hpos : 0 < mantissa) (exponent : ℤ) :
    Rounds spec (signed sign (mantissa * 2 ^ exponent))
      (UnpackedFloat.round spec sign mantissa exponent) := by
  obtain ⟨k, n, hround, hvalue, htarget, _⟩ := round_eq_roundWithAccuracy spec sign hpos exponent
  have hpos' : 0 < mantissa * 2 ^ k := Nat.mul_pos hpos (Nat.two_pow_pos k)
  rw [hround, hvalue]
  exact rounds_roundWithAccuracy sign (Nat.cast_pos.mpr hpos') le_rfl (lt_add_one _)
    (fun h => absurd rfl h) (by rw [htarget]; omega) (Or.inl hpos')

theorem rounds_normalize (spec : Format) (mantissa exponent : ℤ) (zeroSign : Sign) :
    Rounds spec (mantissa * 2 ^ exponent)
      (UnpackedFloat.normalize spec mantissa exponent zeroSign) := by
  unfold UnpackedFloat.normalize
  rcases lt_trichotomy mantissa 0 with hneg | rfl | hpos
  · obtain ⟨n, rfl⟩ := Int.eq_negSucc_of_lt_zero hneg
    rw [compare_lt_iff_lt.mpr hneg]
    have h := rounds_round spec .negative n.succ_pos exponent
    have hvalue : ((Int.negSucc n : ℤ) : ℚ) * 2 ^ exponent =
        signed .negative ((n + 1 : ℕ) * 2 ^ exponent) := by
      rw [signed, Int.cast_negSucc, neg_mul]
    rw [hvalue]
    exact h
  · rw [compare_eq_iff_eq.mpr rfl, Int.cast_zero, zero_mul]
    exact rounds_zero spec zeroSign
  · obtain ⟨n, rfl⟩ := Int.eq_ofNat_of_zero_le hpos.le
    rw [compare_gt_iff_gt.mpr hpos]
    exact rounds_round spec .positive (Nat.cast_pos.mp hpos) exponent

/-! ## Sums and differences -/

theorem value_finite (sign : Sign) (hpos : 0 < mantissa) :
    value (.finite sign mantissa exponent hpos) = signed sign (mantissa * 2 ^ exponent) := by
  cases sign <;> simp [value, Sign.apply, signed]

/-- A mantissa with a smaller exponent, which stands for the same number. -/
theorem value_decreaseExponent (sign : Sign) (hpos : 0 < mantissa) {place : ℤ}
    (h : place ≤ exponent) :
    (sign.apply (UnpackedFloat.decreaseExponent mantissa exponent place).1 : ℚ) * 2 ^ place =
      value (.finite sign mantissa exponent hpos) := by
  obtain ⟨n, rfl⟩ := Int.le.dest h
  have hshift : (UnpackedFloat.decreaseExponent mantissa (place + n) place).1 = mantissa * 2 ^ n := by
    simp [UnpackedFloat.decreaseExponent, Nat.shiftLeft_eq]
  have hvalue : (mantissa : ℚ) * 2 ^ (place + n) = (mantissa * 2 ^ n : ℕ) * 2 ^ place := by
    push_cast
    rw [mul_assoc, two_pow_mul_zpow, add_comm]
  rw [hshift, value_finite, hvalue]
  cases sign <;> simp [Sign.apply, signed]

/-- The mantissas are added at the smaller of the two exponents. -/
theorem add_eq_normalize (spec : Format) (s t : Sign) {m n : ℕ} {e f : ℤ} (hm : 0 < m)
    (hn : 0 < n) :
    ∃ sum : ℤ, UnpackedFloat.add spec (.finite s m e hm) (.finite t n f hn) =
        UnpackedFloat.normalize spec sum (min e f) .positive ∧
      value (.finite s m e hm) + value (.finite t n f hn) = sum * 2 ^ min e f := by
  refine ⟨_, rfl, ?_⟩
  rw [← value_decreaseExponent s hm (min_le_left e f),
    ← value_decreaseExponent t hn (min_le_right e f), ← add_mul]
  push_cast
  rfl

/-- **A sum is rounded faithfully.** -/
theorem rounds_add {a b : UnpackedFloat} (ha : IsCanonical spec a) (hb : IsCanonical spec b)
    (hfiniteA : a.isFinite = true) (hfiniteB : b.isFinite = true) :
    Rounds spec (value a + value b) (UnpackedFloat.add spec a b) := by
  cases a with
  | infinity | notANumber => contradiction
  | zero s =>
    cases b with
    | infinity | notANumber => contradiction
    | zero t =>
      have hzero : value (.zero s) + value (.zero t) = 0 := add_zero 0
      rw [hzero, UnpackedFloat.add]
      split <;> exact rounds_zero spec _
    | finite t n f hn =>
      rw [show value (.zero s) = 0 from rfl, zero_add]
      exact rounds_self rfl hb
  | finite s m e hm =>
    cases b with
    | infinity | notANumber => contradiction
    | zero t =>
      rw [show value (.zero t) = 0 from rfl, add_zero]
      exact rounds_self rfl ha
    | finite t n f hn =>
      obtain ⟨sum, hadd, hvalue⟩ := add_eq_normalize spec s t hm hn
      rw [hadd, hvalue]
      exact rounds_normalize spec sum _ .positive

/-- A difference is a sum. -/
theorem unpacked_sub_eq (spec : Format) (a b : UnpackedFloat) :
    UnpackedFloat.sub spec a b = UnpackedFloat.add spec a b.neg := by
  have happly (s : Sign) (n : ℤ) : (-s).apply n = -s.apply n := by
    cases s
    · exact (neg_neg n).symm
    · rfl
  cases a <;> cases b <;>
    simp [UnpackedFloat.sub, UnpackedFloat.add, UnpackedFloat.neg, happly, sub_eq_add_neg]

theorem rounds_sub {a b : UnpackedFloat} (ha : IsCanonical spec a) (hb : IsCanonical spec b)
    (hfiniteA : a.isFinite = true) (hfiniteB : b.isFinite = true) :
    Rounds spec (value a - value b) (UnpackedFloat.sub spec a b) := by
  have hb' : IsCanonical spec b.neg := by cases b <;> exact hb
  have hfinite : b.neg.isFinite = true := by cases b <;> exact hfiniteB
  rw [unpacked_sub_eq, sub_eq_add_neg, ← value_neg]
  exact rounds_add ha hb' hfiniteA hfinite

/-! ## Products -/

theorem signed_mul (s t : Sign) (x y : ℚ) : signed s x * signed t y = signed (s * t) (x * y) := by
  cases s <;> cases t
  · exact neg_mul_neg x y
  · exact neg_mul x y
  · exact mul_neg x y
  · rfl

theorem signed_div (s t : Sign) (x y : ℚ) : signed s x / signed t y = signed (s / t) (x / y) := by
  cases s <;> cases t
  · exact neg_div_neg_eq x y
  · exact neg_div y x
  · exact div_neg x
  · rfl

/-- One of two mantissas has all digits, or both exponents are the least one. -/
theorem exponent_mul_le {m n : ℕ} {e f : ℤ} (hm : Normalized spec m e) (hn : Normalized spec n f) :
    e + f ≤ spec.targetExponent (totalExponent (m * n) (e + f)) := by
  have hbits := mantissaBits_eq spec
  have hpos : 0 < m * n := Nat.mul_pos hm.pos hn.pos
  rw [Format.targetExponent, totalExponent]
  by_cases hfull : 2 ^ spec.mantissaBitsWithoutImplicit ≤ m * n
  · have hlog := (Nat.le_log2 hpos.ne').mpr hfull
    exact le_max_of_le_left (by omega)
  · have he : e = spec.minExponent := hm.full.resolve_left
      (fun h => hfull (h.trans (Nat.le_mul_of_pos_right m hn.pos)))
    have hf : f = spec.minExponent := hn.full.resolve_left
      (fun h => hfull (h.trans (Nat.le_mul_of_pos_left n hm.pos)))
    have hleast : spec.minExponent ≤ 0 := by
      have hhalf : (1 : ℤ) ≤ 2 ^ (spec.exponentBits - 1) := one_le_pow₀ one_le_two
      have hmantissa := spec.hm
      rw [minExponent_eq]
      omega
    exact le_max_of_le_right (by omega)

/-- **A product is rounded faithfully.** -/
theorem rounds_mul {a b : UnpackedFloat} (ha : IsCanonical spec a) (hb : IsCanonical spec b)
    (hfiniteA : a.isFinite = true) (hfiniteB : b.isFinite = true) :
    Rounds spec (value a * value b) (UnpackedFloat.mul spec a b) := by
  cases a with
  | infinity | notANumber => contradiction
  | zero s =>
    rw [show value (.zero s) = 0 from rfl, zero_mul]
    cases b with
    | infinity | notANumber => contradiction
    | zero | finite => exact rounds_zero spec _
  | finite s m e hm =>
    cases b with
    | infinity | notANumber => contradiction
    | zero t =>
      rw [show value (.zero t) = 0 from rfl, mul_zero]
      exact rounds_zero spec _
    | finite t n f hn =>
      have hpos : 0 < m * n := Nat.mul_pos hm hn
      have hvalue : (m : ℚ) * 2 ^ e * (n * 2 ^ f) = (m * n : ℕ) * 2 ^ (e + f) := by
        rw [zpow_add₀ two_ne_zero]
        push_cast
        ring
      rw [value_finite, value_finite, signed_mul, hvalue]
      exact rounds_roundWithAccuracy _ (Nat.cast_pos.mpr hpos) le_rfl (lt_add_one _)
        (fun h => absurd rfl h) (exponent_mul_le ha hb) (Or.inl hpos)

/-! ## Quotients -/

/-- The whole part of a quotient that is computed has all digits, or its last place is below the
least one. -/
theorem quotient_digits {m n k : ℕ} {e f place : ℤ} (hm : 0 < m) (hn : 0 < n) (hk : e - f = place + k)
    (hplace : place ≤ spec.targetExponent (totalExponent m e - totalExponent n f)) :
    2 ^ spec.mantissaBitsWithoutImplicit ≤ m * 2 ^ k / n ∨ place ≤ spec.minExponent := by
  have hbits := mantissaBits_eq spec
  rw [Format.targetExponent, totalExponent, totalExponent] at hplace
  rcases le_max_iff.mp hplace with hfull | hleast
  · left
    rw [Nat.le_div_iff_mul_le hn]
    calc 2 ^ spec.mantissaBitsWithoutImplicit * n
        ≤ 2 ^ spec.mantissaBitsWithoutImplicit * 2 ^ (n.log2 + 1) :=
          Nat.mul_le_mul_left _ Nat.lt_log2_self.le
      _ = 2 ^ (spec.mantissaBitsWithoutImplicit + (n.log2 + 1)) := (pow_add ..).symm
      _ ≤ 2 ^ (m.log2 + k) := Nat.pow_le_pow_right two_pos (by omega)
      _ = 2 ^ m.log2 * 2 ^ k := pow_add ..
      _ ≤ m * 2 ^ k := Nat.mul_le_mul_right _ (Nat.log2_self_le hm.ne')
  · exact Or.inr hleast

/-- **A quotient is rounded faithfully.** -/
theorem rounds_div {a b : UnpackedFloat} (hfiniteA : a.isFinite = true)
    (hfiniteB : b.isFinite = true) (hne : value b ≠ 0) :
    Rounds spec (value a / value b) (UnpackedFloat.div spec a b) := by
  cases b with
  | infinity | notANumber => contradiction
  | zero t => exact absurd rfl hne
  | finite t n f hn =>
    cases a with
    | infinity | notANumber => contradiction
    | zero s =>
      rw [show value (.zero s) = 0 from rfl, zero_div]
      exact rounds_zero spec _
    | finite s m e hm =>
      unfold UnpackedFloat.div UnpackedFloat.divCore
      dsimp only
      generalize htarget : spec.targetExponent (totalExponent m e - totalExponent n f) = target
      generalize hplace : min (e - f) target = place
      obtain ⟨k, hk⟩ := Int.le.dest (hplace ▸ min_le_left (e - f) target)
      have hamount : (e - f - place).toNat = k := by omega
      rw [hamount, Nat.shiftLeft_eq]
      have hnum : 0 < m * 2 ^ k := Nat.mul_pos hm (Nat.two_pow_pos k)
      have hd : (0 : ℚ) < n := Nat.cast_pos.mpr hn
      have hvalue : (m : ℚ) * 2 ^ e / (n * 2 ^ f) = (m * 2 ^ k : ℕ) / n * 2 ^ place := by
        have hexponent : e = f + (place + k) := by omega
        rw [hexponent, zpow_add₀ two_ne_zero, zpow_add₀ two_ne_zero, zpow_natCast]
        push_cast
        field_simp
      rw [value_finite, value_finite, signed_div, hvalue]
      have hdigits := quotient_digits hm hn hk.symm (htarget ▸ hplace ▸ min_le_right (e - f) target)
      refine rounds_roundWithAccuracy _ (div_pos (Nat.cast_pos.mpr hnum) hd) Nat.cast_div_le
        (div_lt_whole_add_one _ hn) (fun hinexact => whole_lt_div _ hn fun hzero => ?_) ?_ ?_
      · rw [hzero] at hinexact
        exact hinexact rfl
      · rw [Format.targetExponent, totalExponent]
        rcases hdigits with hfull | hleast
        · have hpos := (Nat.two_pow_pos _).trans_le hfull
          have hlog := (Nat.le_log2 hpos.ne').mpr hfull
          have hbits := mantissaBits_eq spec
          exact le_max_of_le_left (by omega)
        · exact le_max_of_le_right hleast
      · exact hdigits.imp_left (fun hfull => (Nat.two_pow_pos _).trans_le hfull)

/-! ## Finite results -/

section FiniteResults

variable {a b : UnpackedFloat}

/-- Only finite numbers have a finite sum. -/
theorem isFinite_of_unpacked_add (h : (UnpackedFloat.add spec a b).isFinite = true) :
    a.isFinite = true ∧ b.isFinite = true := by
  rcases a with ⟨⟨⟩⟩ | _ | _ | _ <;> rcases b with ⟨⟨⟩⟩ | _ | _ | _ <;>
    first | exact ⟨rfl, rfl⟩ | exact absurd h Bool.false_ne_true

theorem isFinite_of_unpacked_sub (h : (UnpackedFloat.sub spec a b).isFinite = true) :
    a.isFinite = true ∧ b.isFinite = true := by
  rw [unpacked_sub_eq] at h
  obtain ⟨ha, hb⟩ := isFinite_of_unpacked_add h
  exact ⟨ha, by cases b <;> exact hb⟩

theorem isFinite_of_unpacked_mul (h : (UnpackedFloat.mul spec a b).isFinite = true) :
    a.isFinite = true ∧ b.isFinite = true := by
  cases a <;> cases b <;> first | exact ⟨rfl, rfl⟩ | exact absurd h Bool.false_ne_true

/-- A quotient by an infinity may be finite, but not one of it. -/
theorem isFinite_of_unpacked_div (h : (UnpackedFloat.div spec a b).isFinite = true) :
    a.isFinite = true := by
  cases a with
  | zero | finite => rfl
  | infinity | notANumber => cases b <;> exact absurd h Bool.false_ne_true

end FiniteResults

end Symbology.Number
