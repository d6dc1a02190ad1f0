import Symbology.Proofs.Number.Double

set_option autoImplicit false

/-! # Zeros in double-precision arithmetic

A zero is taken through the four operations without any rounding: what is added to it is kept, and
a product or quotient with it is a zero again, or is not a number where the other operand does not
allow it (`zeroIf_mul_zero`, `zeroIf_zero_div`). The difference of two numbers is a zero only if
they are equal (`sub_beq_zero_iff`): numbers near zero are close enough to each other that no
difference is rounded to zero. -/

namespace Symbology.Number

open Float.Model (UnpackedFloat Format)
open Float.Model.UnpackedFloat (Sign)

variable {x y z : Float}

theorem unpack_packed_zero (sign : Sign) : (packed (.zero sign)).toModel.unpack = .zero sign :=
  unpack_packedZero .binary64 sign

/-! ## Zeros -/

theorem beq_zero_iff : (x == 0) = true ↔ ∃ sign, x.toModel.unpack = .zero sign := by
  change UnpackedFloat.beq x.toModel.unpack (.zero .positive) = true ↔ _
  rw [UnpackedFloat.beq_iff_ne_notANumber_and_eq]
  cases x.toModel.unpack with
  | zero sign => cases sign <;> simp
  | _ => simp

theorem packed_zero_beq (sign : Sign) : (packed (.zero sign) == 0) = true :=
  beq_zero_iff.mpr ⟨sign, unpack_packed_zero sign⟩

theorem isNaN_iff_unpack : x.isNaN = true ↔ x.toModel.unpack = .notANumber :=
  UnpackedFloat.isNaN_iff

theorem isFinite_of_beq_zero (h : (x == 0) = true) : x.isFinite = true := by
  obtain ⟨sign, hx⟩ := beq_zero_iff.mp h
  change x.toModel.unpack.isFinite = true
  rw [hx]
  rfl

theorem eq_of_beq_zero (h : (x == 0) = true) : x = 0 ∨ x = -0 := by
  obtain ⟨_, _, h | ⟨h, _⟩ | ⟨h, _⟩⟩ := Float.beq_iff_ne_nan_and_eq.mp h
  · exact Or.inl h
  · exact Or.inl h
  · exact Or.inr h

/-- What compares equal is the same, or both are zeros. -/
theorem eq_or_zeros_of_beq (h : (x == y) = true) : x = y ∨ (x == 0) = true ∧ (y == 0) = true := by
  obtain ⟨_, _, heq | ⟨rfl, rfl⟩ | ⟨rfl, rfl⟩⟩ := Float.beq_iff_ne_nan_and_eq.mp h
  · exact Or.inl heq
  · exact Or.inr ⟨by decide, by decide⟩
  · exact Or.inr ⟨by decide, by decide⟩

theorem isFinite_of_beq (h : (x == y) = true) (hy : y.isFinite = true) : x.isFinite = true := by
  rcases eq_or_zeros_of_beq h with rfl | ⟨hx, _⟩
  · exact hy
  · exact isFinite_of_beq_zero hx

/-! ## Operations with a zero -/

/-- The number is a zero if the condition holds, and is not a number otherwise. -/
structure ZeroIf (P : Prop) (x : Float) : Prop where
  zero : P → (x == 0) = true
  isNaN : ¬P → x.isNaN = true

theorem ZeroIf.congr {P Q : Prop} (h : ZeroIf P x) (hiff : P ↔ Q) : ZeroIf Q x :=
  ⟨fun hq => h.zero (hiff.mpr hq), fun hq => h.isNaN (mt hiff.mp hq)⟩

section Operations

variable (hz : (z == 0) = true)

include hz

/-- A zero that is added to another number changes nothing. -/
theorem add_zero_eq (hx : (x == 0) = false) : x + z = x := by
  obtain ⟨sign, hz⟩ := beq_zero_iff.mp hz
  have hadd : UnpackedFloat.add .binary64 x.toModel.unpack z.toModel.unpack = x.toModel.unpack := by
    rw [hz]
    cases hu : x.toModel.unpack with
    | zero s => exact absurd (beq_zero_iff.mpr ⟨s, hu⟩) (by simp [hx])
    | _ => rfl
  exact (congrArg packed hadd).trans (packed_unpack x)

theorem zero_add_eq (hx : (x == 0) = false) : z + x = x := by
  obtain ⟨sign, hz⟩ := beq_zero_iff.mp hz
  have hadd : UnpackedFloat.add .binary64 z.toModel.unpack x.toModel.unpack = x.toModel.unpack := by
    rw [hz]
    cases hu : x.toModel.unpack with
    | zero s => exact absurd (beq_zero_iff.mpr ⟨s, hu⟩) (by simp [hx])
    | _ => rfl
  exact (congrArg packed hadd).trans (packed_unpack x)

/-- The sum of two zeros is a zero. -/
theorem zero_add_zero_beq (hx : (x == 0) = true) : (x + z == 0) = true := by
  obtain ⟨s, hx⟩ := beq_zero_iff.mp hx
  obtain ⟨t, hz⟩ := beq_zero_iff.mp hz
  have hadd : x + z = packed (UnpackedFloat.add .binary64 (.zero s) (.zero t)) := by
    rw [← hx, ← hz]
    rfl
  rw [hadd]
  cases s <;> cases t <;> exact packed_zero_beq _

theorem add_zero_beq (hx : x.isNaN = false) : (x + z == x) = true := by
  cases hzero : x == 0 with
  | false =>
    rw [add_zero_eq hz hzero, Float.beq_self_iff]
    rintro rfl
    contradiction
  | true => exact BEq.trans (zero_add_zero_beq hz hzero) (BEq.symm hzero)

theorem isFinite_zero_add : (z + x).isFinite = x.isFinite := by
  cases hx : x == 0 with
  | false => rw [zero_add_eq hz hx]
  | true => rw [isFinite_of_beq_zero (zero_add_zero_beq hx hz), isFinite_of_beq_zero hx]

/-- A product with a zero is a zero if the other factor is finite. -/
theorem zeroIf_mul_zero (x : Float) : ZeroIf (x.isFinite = true) (x * z) := by
  obtain ⟨t, hz⟩ := beq_zero_iff.mp hz
  have hmul : x * z = packed (UnpackedFloat.mul .binary64 x.toModel.unpack (.zero t)) := by
    rw [← hz]
    rfl
  change ZeroIf (x.toModel.unpack.isFinite = true) _
  rw [hmul]
  cases x.toModel.unpack with
  | infinity | notANumber => exact ⟨nofun, fun _ => isNaN_packed .notANumber⟩
  | zero | finite => exact ⟨fun _ => packed_zero_beq _, fun h => absurd rfl h⟩

/-- A quotient of a zero is a zero if the divisor is none and is a number at all. -/
theorem zeroIf_zero_div (x : Float) : ZeroIf (x.isNaN = false ∧ (x == 0) = false) (z / x) := by
  obtain ⟨t, hz⟩ := beq_zero_iff.mp hz
  have hdiv : z / x = packed (UnpackedFloat.div .binary64 (.zero t) x.toModel.unpack) := by
    rw [← hz]
    rfl
  have hspecial : ¬(x.isNaN = false ∧ (x == 0) = false) ↔
      x.toModel.unpack = .notANumber ∨ ∃ s, x.toModel.unpack = .zero s := by
    rw [← isNaN_iff_unpack, ← beq_zero_iff, not_and_or, Bool.not_eq_false, Bool.not_eq_false]
  rw [hdiv]
  constructor
  · intro h
    have hnone := mt hspecial.mpr (not_not_intro h)
    cases hx : x.toModel.unpack with
    | notANumber => exact absurd (Or.inl hx) hnone
    | zero s => exact absurd (Or.inr ⟨s, hx⟩) hnone
    | infinity | finite => exact packed_zero_beq _
  · intro h
    rcases hspecial.mp h with hx | ⟨s, hx⟩ <;> rw [hx] <;> exact isNaN_packed .notANumber

/-- One step of Horner's rule at zero: the result is finite if both coefficients are. -/
theorem isFinite_mul_zero_add (x y : Float) :
    (x * z + y).isFinite = (x.isFinite && y.isFinite) := by
  have hmul := zeroIf_mul_zero hz x
  cases hx : x.isFinite with
  | true => rw [isFinite_zero_add (hmul.zero hx), Bool.true_and]
  | false =>
    have hnan : (x * z).toModel.unpack = .notANumber :=
      isNaN_iff_unpack.mp (hmul.isNaN (by rw [hx]; exact Bool.false_ne_true))
    have hadd : x * z + y = packed .notANumber := by
      change packed (UnpackedFloat.add .binary64 (x * z).toModel.unpack y.toModel.unpack) = _
      rw [hnan]
      rfl
    rw [hadd]
    rfl

end Operations

/-! ## Differences -/

/-- The numbers of a format are whole multiples of the least one. -/
theorem exists_int_value {spec : Format} {u : UnpackedFloat} (hcanonical : IsCanonical spec u) :
    ∃ k : ℤ, value u = k * 2 ^ spec.minExponent := by
  cases u with
  | finite sign mantissa exponent hpos =>
    obtain ⟨k, hk⟩ := exists_whole_places (Normalized.least hcanonical) mantissa
    refine ⟨sign.apply k, ?_⟩
    rw [value_finite, hk]
    cases sign <;> simp [signed, Sign.apply]
  | _ => exact ⟨0, by simp [value]⟩

/-- So two of them are not closer to each other than the least number is to zero. -/
theorem exists_representable_le_abs_sub {spec : Format} {u v : UnpackedFloat}
    (hu : IsCanonical spec u) (hv : IsCanonical spec v) (hne : value u ≠ value v) :
    ∃ r, Representable spec r ∧ 0 < r ∧ r ≤ |value u - value v| := by
  obtain ⟨k, hk⟩ := exists_int_value hu
  obtain ⟨l, hl⟩ := exists_int_value hv
  have hleast : (0 : ℚ) < 2 ^ spec.minExponent := by positivity
  refine ⟨2 ^ spec.minExponent, ⟨1, spec.minExponent, ?_, le_rfl, ?_⟩, hleast, ?_⟩
  · exact Nat.one_lt_two_pow (by rw [Format.mantissaBits]; omega)
  · rw [abs_of_pos hleast, Nat.cast_one, one_mul]
  · have hdistinct : k - l ≠ 0 := fun h => hne (by rw [hk, hl, sub_eq_zero.mp h])
    have hone : (1 : ℚ) ≤ |((k - l : ℤ) : ℚ)| := by
      rw [← Int.cast_abs]
      exact_mod_cast Int.one_le_abs hdistinct
    rw [hk, hl, ← sub_mul, ← Int.cast_sub, abs_mul, abs_of_pos hleast]
    exact le_mul_of_one_le_left hleast.le hone

/-- A rounding of such a difference is no zero. -/
theorem Rounds.value_ne_zero {spec : Format} {q r : ℚ} {u : UnpackedFloat} (h : Rounds spec q u)
    (hr : Representable spec r) (hpos : 0 < r) (hle : r ≤ |q|) : value u ≠ 0 := by
  rcases le_abs'.mp hle with hlower | hupper
  · exact ((h.le (-r) hr.neg hlower).trans_lt (neg_lt_zero.mpr hpos)).ne
  · exact (hpos.trans_le (h.ge r hr hupper)).ne'

/-- Only finite numbers have a finite difference. -/
theorem isFinite_of_sub (h : (x - y).isFinite = true) : x.isFinite = true ∧ y.isFinite = true :=
  isFinite_of_unpacked_sub (isFinite_of_packed h)

theorem sub_self_beq_zero (hx : x.isFinite = true) (h : (x == y) = true) :
    (x - y == 0) = true := by
  rcases eq_or_zeros_of_beq h with rfl | ⟨hx, hy⟩
  · have hsub : ∃ sign, UnpackedFloat.sub .binary64 x.toModel.unpack x.toModel.unpack =
        .zero sign := by
      change x.toModel.unpack.isFinite = true at hx
      cases hu : x.toModel.unpack with
      | infinity | notANumber =>
        rw [hu] at hx
        contradiction
      | zero s => cases s <;> exact ⟨_, rfl⟩
      | finite s m e hpos =>
        refine ⟨.positive, ?_⟩
        rw [UnpackedFloat.sub]
        simp [UnpackedFloat.normalize]
    obtain ⟨sign, hsub⟩ := hsub
    change (packed (UnpackedFloat.sub .binary64 x.toModel.unpack x.toModel.unpack) == 0) = true
    rw [hsub]
    exact packed_zero_beq sign
  · obtain ⟨s, hs⟩ := beq_zero_iff.mp hx
    obtain ⟨t, ht⟩ := beq_zero_iff.mp hy
    change (packed (UnpackedFloat.sub .binary64 x.toModel.unpack y.toModel.unpack) == 0) = true
    rw [hs, ht]
    cases s <;> cases t <;> exact packed_zero_beq _

/-- **A difference is a zero just for equal numbers.** -/
theorem sub_beq_zero_iff : (x - y == 0) = true ↔ x.isFinite = true ∧ (x == y) = true := by
  refine ⟨fun h => ?_, fun h => sub_self_beq_zero h.1 h.2⟩
  obtain ⟨sign, hzero⟩ := beq_zero_iff.mp h
  change (packed (UnpackedFloat.sub .binary64 x.toModel.unpack y.toModel.unpack)).toModel.unpack =
    .zero sign at hzero
  have hcanonicalX := (isCanonical_unpack_double x).1
  have hcanonicalY := (isCanonical_unpack_double y).1
  have hfinite := isFinite_of_sub (isFinite_of_beq_zero h)
  have hrounds := rounds_sub hcanonicalX hcanonicalY hfinite.1 hfinite.2
  refine ⟨hfinite.1, beq_of_double_eq hfinite.1 hfinite.2 ?_⟩
  by_contra hne
  obtain ⟨r, hr, hpos, hle⟩ := exists_representable_le_abs_sub hcanonicalX hcanonicalY hne
  have hvalue := hrounds.value_ne_zero hr hpos hle
  rcases unpack_packed_cases hrounds.canonical with hsame | ⟨_, s, hinfinite⟩
  · rw [← hsame, hzero] at hvalue
    exact hvalue rfl
  · rw [hinfinite] at hzero
    contradiction

/-- The difference to a finite number is a number. -/
theorem isNaN_sub_of_isFinite (hy : y.isFinite = true) : (x - y).isNaN = x.isNaN := by
  change (packed (UnpackedFloat.sub .binary64 x.toModel.unpack y.toModel.unpack)).isNaN =
    x.toModel.unpack.isNaN
  rw [isNaN_packed]
  have hcanonicalX := (isCanonical_unpack_double x).1
  have hcanonicalY := (isCanonical_unpack_double y).1
  change y.toModel.unpack.isFinite = true at hy
  generalize y.toModel.unpack = v at *
  cases hu : x.toModel.unpack with
  | notANumber => rfl
  | infinity => cases v <;> first | rfl | contradiction
  | zero | finite =>
    rw [hu] at hcanonicalX
    exact isNaN_unpacked_of_isFinite (rounds_sub hcanonicalX hcanonicalY rfl hy).finite

/-! ## Blends -/

theorem isNaN_add_of_right (x : Float) (hy : y.isNaN = true) : (x + y).isNaN = true := by
  change (packed (UnpackedFloat.add .binary64 x.toModel.unpack y.toModel.unpack)).isNaN = true
  rw [isNaN_iff_unpack.mp hy]
  cases x.toModel.unpack <;> exact isNaN_packed .notANumber

theorem isNaN_mul_of_right (x : Float) (hy : y.isNaN = true) : (x * y).isNaN = true := by
  change (packed (UnpackedFloat.mul .binary64 x.toModel.unpack y.toModel.unpack)).isNaN = true
  rw [isNaN_iff_unpack.mp hy]
  cases x.toModel.unpack <;> exact isNaN_packed .notANumber

/-- **A blend without weight** is the first number, if the numbers have a finite difference. Where
that or the weight is out of range, the blend is not a number. -/
theorem blend_at_zero {P : Prop} {a b t : Float} (ht : ZeroIf P t) :
    (P ∧ (b - a).isFinite = true →
      (a + (b - a) * t == a) = true ∧ ((a == 0) = false → a + (b - a) * t = a)) ∧
    (¬(P ∧ (b - a).isFinite = true) → (a + (b - a) * t).isNaN = true) := by
  constructor
  · rintro ⟨hP, hfinite⟩
    have hproduct := (zeroIf_mul_zero (ht.zero hP) _).zero hfinite
    exact ⟨add_zero_beq hproduct (isNaN_of_isFinite (isFinite_of_sub hfinite).2),
      add_zero_eq hproduct⟩
  · intro h
    apply isNaN_add_of_right
    by_cases hP : P
    · exact (zeroIf_mul_zero (ht.zero hP) _).isNaN (fun hfinite => h ⟨hP, hfinite⟩)
    · exact isNaN_mul_of_right _ (ht.isNaN hP)

end Symbology.Number
