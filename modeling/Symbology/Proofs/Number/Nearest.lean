import Symbology.Proofs.Number.Bounds

set_option autoImplicit false

/-! # Rounding to the nearest number

The two bits that are kept of the digits behind a mantissa tell on which side of the middle between
two mantissas a fraction lies (`Measures`). So sums and differences are not only rounded faithfully
but to a number of the format that is nearest to the exact result (`isNearest_add`,
`isNearest_sub`). A greater exact result is therefore never rounded to a smaller number
(`value_le_of_lt`), and a sum of single-precision numbers that is beyond one by less than half of
the step to the next number is rounded back to one (`between_add_one`). -/

namespace Symbology.Number

open Float.Model (UnpackedFloat Format totalExponent)
open Float.Model.UnpackedFloat (Sign Accuracy ExtendedMantissa)

variable {spec : Format} {mantissa : ℕ} {exponent : ℤ} {x y p q r : ℚ}

/-! ## Mantissas -/

/-- The mantissa is the whole part of the fraction, and the two bits tell where the rest lies: at
zero, below a half, at a half or beyond. -/
structure Measures (em : ExtendedMantissa) (y : ℚ) : Prop extends Extends em y where
  low : em.roundBit = false → y < em.mantissa + 1 / 2
  high : em.roundBit = true → (em.mantissa : ℚ) + 1 / 2 ≤ y
  whole : em.roundBit = false → em.stickyBit = false → y = em.mantissa
  middle : em.roundBit = true → em.stickyBit = false → y = em.mantissa + 1 / 2

/-- The digit that is taken off is a half of the one before it. -/
theorem Measures.shiftRightOne {em : ExtendedMantissa} (h : Measures em y) :
    Measures em.shiftRightOne (y / 2) := by
  have hle := h.le
  have hlt := h.lt_add_one
  have hwhole := h.whole
  obtain ⟨m, round, sticky⟩ := em
  have hsplit : (m : ℚ) = 2 * (m / 2 : ℕ) + (m % 2 : ℕ) := by
    exact_mod_cast (Nat.div_add_mod m 2).symm
  have heven (hround : (m % 2 != 0) = false) : (m : ℚ) = 2 * (m / 2 : ℕ) := by
    rw [bne_eq_false_iff_eq.mp hround, Nat.cast_zero, add_zero] at hsplit
    exact hsplit
  have hodd (hround : (m % 2 != 0) = true) : (m : ℚ) = 2 * (m / 2 : ℕ) + 1 := by
    have hne : m % 2 ≠ 0 := bne_iff_ne.mp hround
    rw [show m % 2 = 1 by omega, Nat.cast_one] at hsplit
    exact hsplit
  refine ⟨h.toExtends.shiftRightOne, fun hround => ?_, fun hround => ?_, fun hround hsticky => ?_,
    fun hround hsticky => ?_⟩
  · change y / 2 < ((m / 2 : ℕ) : ℚ) + 1 / 2
    linarith [heven hround]
  · change ((m / 2 : ℕ) : ℚ) + 1 / 2 ≤ y / 2
    linarith [hodd hround]
  · obtain ⟨hround', hsticky'⟩ := Bool.or_eq_false_iff.mp hsticky
    change y / 2 = ((m / 2 : ℕ) : ℚ)
    linarith [heven hround, hwhole hround' hsticky']
  · obtain ⟨hround', hsticky'⟩ := Bool.or_eq_false_iff.mp hsticky
    change y / 2 = ((m / 2 : ℕ) : ℚ) + 1 / 2
    linarith [hodd hround, hwhole hround' hsticky']

theorem Measures.shiftRight {em : ExtendedMantissa} (h : Measures em y) (n : ℕ) :
    Measures (em >>> n) (y / 2 ^ n) := by
  change Measures (n.repeat ExtendedMantissa.shiftRightOne em) _
  induction n with
  | zero => simpa [Nat.repeat] using h
  | succ n ih =>
    rw [Nat.repeat, pow_succ, ← div_div]
    exact ih.shiftRightOne

theorem measures_exact (mantissa : ℕ) :
    Measures (ExtendedMantissa.ofMantissaAndAccuracy mantissa .exact) mantissa where
  toExtends := extends_ofMantissaAndAccuracy le_rfl (lt_add_one _) (fun h => absurd rfl h)
  low _ := by
    change (mantissa : ℚ) < mantissa + 1 / 2
    linarith
  high h := absurd h Bool.false_ne_true
  whole _ _ := rfl
  middle h := absurd h Bool.false_ne_true

/-- **A rounded mantissa is at most a half away from the fraction.** -/
theorem Measures.abs_rounded_sub_le {em : ExtendedMantissa} (h : Measures em y) :
    |(em.roundedMantissa : ℚ) - y| ≤ 1 / 2 := by
  obtain ⟨⟨hle, hlt, _⟩, hlow, hhigh, hwhole, hmiddle⟩ := h
  rw [abs_le]
  rcases em with ⟨m, _ | _, _ | _⟩
  · have heq : y = m := hwhole rfl rfl
    change _ ≤ (m : ℚ) - y ∧ (m : ℚ) - y ≤ _
    constructor <;> linarith
  · have hbelow : y < (m : ℚ) + 1 / 2 := hlow rfl
    change _ ≤ (m : ℚ) - y ∧ (m : ℚ) - y ≤ _
    constructor <;> linarith
  · -- in the middle both neighbors are a half away
    have heq : y = (m : ℚ) + 1 / 2 := hmiddle rfl rfl
    have hdigit : ((m % 2 : ℕ) : ℚ) ≤ 1 := by
      exact_mod_cast Nat.lt_succ_iff.mp (Nat.mod_lt m two_pos)
    have hnonneg : (0 : ℚ) ≤ (m % 2 : ℕ) := Nat.cast_nonneg _
    change _ ≤ ((m + m % 2 : ℕ) : ℚ) - y ∧ ((m + m % 2 : ℕ) : ℚ) - y ≤ _
    rw [Nat.cast_add]
    constructor <;> linarith
  · have habove : (m : ℚ) + 1 / 2 ≤ y := hhigh rfl
    change _ ≤ ((m + 1 : ℕ) : ℚ) - y ∧ ((m + 1 : ℕ) : ℚ) - y ≤ _
    change y < (m : ℚ) + 1 at hlt
    rw [Nat.cast_add, Nat.cast_one]
    constructor <;> linarith

/-! ## Nearest numbers -/

/-- No number of the format is nearer to the fraction. -/
def IsNearest (spec : Format) (x : ℚ) (u : UnpackedFloat) : Prop :=
  ∀ r, Representable spec r → |value u - x| ≤ |r - x|

theorem isNearest_self (spec : Format) (u : UnpackedFloat) : IsNearest spec (value u) u :=
  fun r _ => by
    rw [sub_self, abs_zero]
    exact abs_nonneg _

theorem IsNearest.neg {u : UnpackedFloat} (h : IsNearest spec x u) : IsNearest spec (-x) u.neg := by
  intro r hr
  have hmirror (s t : ℚ) : |-s - -t| = |s - t| := by rw [neg_sub_neg, abs_sub_comm]
  rw [value_neg, hmirror, ← neg_neg r, hmirror]
  exact h (-r) hr.neg

/-- A whole number that is at most a half away is a nearest one. -/
theorem abs_sub_le_of_half {n k : ℤ} (h : |(n : ℚ) - y| ≤ 1 / 2) : |(n : ℚ) - y| ≤ |(k : ℚ) - y| := by
  rcases eq_or_ne k n with rfl | hne
  · exact le_rfl
  · have hone : (1 : ℚ) ≤ |(k : ℚ) - n| := by
      rw [← Int.cast_sub, ← Int.cast_abs]
      exact_mod_cast Int.one_le_abs (sub_ne_zero.mpr hne)
    have htriangle := abs_sub_le (k : ℚ) y n
    rw [abs_sub_comm y] at htriangle
    linarith

/-- **A mantissa that is at most a half away makes a nearest number**, if the fraction has as many
digits in front of the last place as the format. -/
theorem isNearest_canonical_positive {n : ℕ} {place : ℤ} (hhalf : |(n : ℚ) - x / 2 ^ place| ≤ 1 / 2)
    (hlow : 2 ^ spec.mantissaBitsWithoutImplicit * (2 : ℚ) ^ place ≤ x ∨
      place = spec.minExponent) :
    IsNearest spec x (canonical spec .positive n place) := by
  have hplace : (0 : ℚ) < 2 ^ place := by positivity
  have hscale (k : ℤ) : |(k : ℚ) * 2 ^ place - x| = |(k : ℚ) - x / 2 ^ place| * 2 ^ place := by
    rw [← abs_of_pos hplace, ← abs_mul, sub_mul, abs_of_pos hplace, div_mul_cancel₀ _ hplace.ne']
  -- no whole number of last places is nearer
  have hwhole (k : ℤ) : |(n : ℚ) * 2 ^ place - x| ≤ |(k : ℚ) * 2 ^ place - x| := by
    have hn := hscale n
    rw [Int.cast_natCast] at hn
    rw [hn, hscale k]
    exact mul_le_mul_of_nonneg_right (abs_sub_le_of_half (n := n) hhalf) hplace.le
  intro r hr
  rw [(value_canonical ..).2, Sign.apply, Int.cast_natCast]
  obtain ⟨m, e, hlt, hleast, habs⟩ := hr
  rcases le_or_gt place e with hexponent | hexponent
  · obtain ⟨k, hk⟩ := exists_whole_places hexponent m
    rw [hk] at habs
    rcases abs_eq (by positivity) |>.mp habs with rfl | rfl
    · exact hwhole k
    · have h := hwhole (-k)
      rw [Int.cast_neg, Int.cast_natCast, neg_mul] at h
      exact h
  · -- below the numbers with all digits, the least of which is nearer
    have hsmall := lt_of_exponent_lt hlt hexponent
    have hfull := hlow.resolve_right (by omega)
    have hr : r ≤ m * 2 ^ e := habs ▸ le_abs_self r
    have hleastFull := hwhole (2 ^ spec.mantissaBitsWithoutImplicit)
    rw [Int.cast_pow, Int.cast_ofNat] at hleastFull
    refine hleastFull.trans ?_
    rw [abs_of_nonpos (by linarith), abs_of_nonpos (by linarith)]
    linarith

/-! ## Sums and differences -/

/-- A mantissa that is not cut off is rounded to a nearest number. -/
theorem isNearest_round (spec : Format) (sign : Sign) (hpos : 0 < mantissa) (exponent : ℤ) :
    IsNearest spec (signed sign (mantissa * 2 ^ exponent))
      (UnpackedFloat.round spec sign mantissa exponent) := by
  obtain ⟨k, n, hround, hvalue, htarget, _⟩ := round_eq_roundWithAccuracy spec sign hpos exponent
  have hpos' : 0 < mantissa * 2 ^ k := Nat.mul_pos hpos (Nat.two_pow_pos k)
  rw [hround, hvalue,
    roundWithAccuracy_eq sign le_rfl (lt_add_one _) (fun h => absurd rfl h) htarget]
  have hhalf := ((measures_exact (mantissa * 2 ^ k)).shiftRight n).abs_rounded_sub_le
  rw [shifted_eq (exponent - k)] at hhalf
  have h := isNearest_canonical_positive hhalf (ge_of_targetExponent hpos' le_rfl htarget)
  cases sign with
  | positive => exact h
  | negative =>
    rw [canonical_negative]
    exact h.neg

theorem isNearest_normalize (spec : Format) (mantissa exponent : ℤ) (zeroSign : Sign) :
    IsNearest spec (mantissa * 2 ^ exponent)
      (UnpackedFloat.normalize spec mantissa exponent zeroSign) := by
  unfold UnpackedFloat.normalize
  rcases lt_trichotomy mantissa 0 with hneg | rfl | hpos
  · obtain ⟨n, rfl⟩ := Int.eq_negSucc_of_lt_zero hneg
    rw [compare_lt_iff_lt.mpr hneg]
    have h := isNearest_round spec .negative n.succ_pos exponent
    rwa [signed, ← neg_mul, Nat.cast_succ, ← Nat.cast_succ, ← Int.cast_natCast, ← Int.cast_neg] at h
  · rw [compare_eq_iff_eq.mpr rfl, Int.cast_zero, zero_mul]
    exact isNearest_self spec (.zero zeroSign)
  · obtain ⟨n, rfl⟩ := Int.eq_ofNat_of_zero_le hpos.le
    rw [compare_gt_iff_gt.mpr hpos]
    exact isNearest_round spec .positive (Nat.cast_pos.mp hpos) exponent

/-- **A sum is rounded to a nearest number.** -/
theorem isNearest_add {u v : UnpackedFloat} (hfiniteU : u.isFinite = true)
    (hfiniteV : v.isFinite = true) :
    IsNearest spec (value u + value v) (UnpackedFloat.add spec u v) := by
  cases u with
  | infinity | notANumber => contradiction
  | zero s =>
    cases v with
    | infinity | notANumber => contradiction
    | zero t =>
      have hzero : value (.zero s) + value (.zero t) = 0 := add_zero 0
      rw [hzero, UnpackedFloat.add]
      split <;> exact isNearest_self spec (.zero _)
    | finite t n f hn =>
      rw [show value (.zero s) = 0 from rfl, zero_add]
      exact isNearest_self spec (.finite t n f hn)
  | finite s m e hm =>
    cases v with
    | infinity | notANumber => contradiction
    | zero t =>
      rw [show value (.zero t) = 0 from rfl, add_zero]
      exact isNearest_self spec (.finite s m e hm)
    | finite t n f hn =>
      obtain ⟨sum, hadd, hvalue⟩ := add_eq_normalize spec s t hm hn
      rw [hadd, hvalue]
      exact isNearest_normalize spec sum _ .positive

theorem isNearest_sub {u v : UnpackedFloat} (hfiniteU : u.isFinite = true)
    (hfiniteV : v.isFinite = true) :
    IsNearest spec (value u - value v) (UnpackedFloat.sub spec u v) := by
  have hfinite : v.neg.isFinite = true := by cases v <;> exact hfiniteV
  rw [unpacked_sub_eq, sub_eq_add_neg, ← value_neg]
  exact isNearest_add hfiniteU hfinite

/-- **Rounding keeps the order**: of two fractions, the greater one is not rounded to a smaller
number. -/
theorem value_le_of_lt {u v : UnpackedFloat} (hu : Rounds spec p u) (hv : Rounds spec q v)
    (hnearestU : IsNearest spec p u) (hnearestV : IsNearest spec q v) (h : p < q) :
    value u ≤ value v := by
  by_contra hgt
  have hlt : value v < value u := not_le.mp hgt
  have hrepresentableU := representable_value hu.canonical
  have hrepresentableV := representable_value hv.canonical
  -- both fractions lie between the two numbers, and each would be rounded to the farther one
  have hlower : value v < p := not_le.mp (fun hle => hgt (hu.le _ hrepresentableV hle))
  have hupper : q < value u := not_le.mp (fun hle => hgt (hv.ge _ hrepresentableU hle))
  have hfar := hnearestU _ hrepresentableV
  have hfar' := hnearestV _ hrepresentableU
  rw [abs_of_nonneg (by linarith), abs_of_nonpos (by linarith)] at hfar
  rw [abs_of_nonpos (by linarith), abs_of_nonneg (by linarith)] at hfar'
  linarith

/-! ## Numbers just beyond one -/

/-- There is a step from one to the next number. -/
theorem le_one_of_lt_next (hr : Representable .binary32 r) (h : r < 1 + 2 ^ (-23 : ℤ)) : r ≤ 1 := by
  by_contra hgt
  have hlower : 1 < r := not_le.mp hgt
  obtain ⟨m, e, hlt, hleast, habs⟩ := hr
  rw [abs_of_pos (one_pos.trans hlower)] at habs
  rw [habs] at h hlower
  rcases le_or_gt (-23) e with hexponent | hexponent
  · -- a whole number of steps
    obtain ⟨k, hk⟩ := exists_whole_places hexponent m
    rw [hk] at h hlower
    norm_num at h hlower
    have hbelow : (k : ℚ) < (2 ^ 23 + 1 : ℕ) := by push_cast; linarith
    have habove : ((2 ^ 23 : ℕ) : ℚ) < k := by push_cast; linarith
    exact absurd (Nat.cast_lt.mp hbelow) (not_lt.mpr (Nat.cast_lt.mp habove))
  · have hsmall : (m : ℚ) * 2 ^ e <
        2 ^ Format.binary32.mantissaBitsWithoutImplicit * 2 ^ (-23 : ℤ) :=
      lt_of_exponent_lt hlt hexponent
    have hone : (2 : ℚ) ^ Format.binary32.mantissaBitsWithoutImplicit * 2 ^ (-23 : ℤ) = 1 := by
      norm_num [Format.binary32]
    linarith

variable {a b : Float32}

/-- **A sum that is beyond one by less than half of the step lies between 0 and 1.** -/
theorem between_add_one (ha : a.isFinite = true) (hb : b.isFinite = true)
    (hlower : 0 ≤ single a + single b) (hupper : single a + single b < 1 + 2 ^ (-24 : ℤ)) :
    Between 0 1 (a + b) := by
  have hrounds : Rounds .binary32 (single a + single b)
      (UnpackedFloat.add .binary32 a.toModel.unpack b.toModel.unpack) :=
    rounds_add (isCanonical_unpack_single a).1 (isCanonical_unpack_single b).1 ha hb
  have hrange : |single a + single b| ≤ greatest .binary32 := by
    rw [abs_of_nonneg hlower, greatest_single]
    exact hupper.le.trans (by norm_num)
  have hunpack : (a + b).toModel.unpack =
      UnpackedFloat.add .binary32 a.toModel.unpack b.toModel.unpack :=
    hrounds.unpack_pack (by decide) hrange
  refine ⟨?_, ?_, ?_⟩
  · change (a + b).toModel.unpack.isFinite = true
    rw [hunpack]
    exact hrounds.finite
  · rw [single, hunpack]
    exact hrounds.ge 0 isSingle_zero.representable hlower
  · rw [single, hunpack]
    rcases le_or_gt (single a + single b) 1 with hle | hgt
    · exact hrounds.le 1 isSingle_one.representable hle
    -- one is nearer than the next number
    have hnear : |value (UnpackedFloat.add .binary32 a.toModel.unpack b.toModel.unpack) -
        (single a + single b)| ≤ |1 - (single a + single b)| :=
      isNearest_add ha hb 1 isSingle_one.representable
    refine le_one_of_lt_next (representable_value hrounds.canonical) ?_
    have hstep : (2 : ℚ) ^ (-24 : ℤ) + 2 ^ (-24 : ℤ) = 2 ^ (-23 : ℤ) := by norm_num
    rw [abs_of_neg (by linarith : 1 - (single a + single b) < 0)] at hnear
    linarith [(abs_le.mp hnear).2]

end Symbology.Number
