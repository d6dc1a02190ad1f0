import Symbology.Interpolation.Basic
import Symbology.Proofs.Number.Nearest
import Symbology.Proofs.Number.Zeros
import Symbology.Typing.Stops

set_option autoImplicit false

/-! # Weights between stops

At the label of the lower of two stops the upper one is meant to have no weight. The formula of the
curve is evaluated on floating-point numbers, though, and where something on the way to the weight
is out of range, the weight is not a number: `StartsAtZero` tells where (`zeroIf_factor`).

At an even rate the weight is between 0 and 1 at all inputs between the labels, rounding included,
if the way from the lower label is finite (`betweenDoubles_linear`). -/

namespace Symbology

open Number
open Float.Model (UnpackedFloat)

/-! ## Powers -/

theorem Number.power_of_beq_zero {exponent : Float} (base : Float) (h : (exponent == 0) = true) :
    power base exponent = 1 := by
  rw [power, h, Bool.true_or, if_pos rfl]

/-! ## Bézier curves -/

namespace UnitBezier

variable {curve : UnitBezier Float} {t x : Float}

/-- The coefficients of `x` are finite. -/
def HasFiniteX (curve : UnitBezier Float) : Prop :=
  curve.cubicX.isFinite = true ∧ curve.quadraticX.isFinite = true ∧ curve.linearX.isFinite = true

/-- The coefficients of `y` are finite. -/
def HasFiniteY (curve : UnitBezier Float) : Prop :=
  curve.cubicY.isFinite = true ∧ curve.quadraticY.isFinite = true ∧ curve.linearY.isFinite = true

/-- Horner's rule at zero. -/
theorem zeroIf_horner (ht : (t == 0) = true) (a b c : Float) :
    ZeroIf (a.isFinite = true ∧ b.isFinite = true ∧ c.isFinite = true)
      (((a * t + b) * t + c) * t) :=
  (zeroIf_mul_zero ht _).congr (by
    rw [isFinite_mul_zero_add ht, isFinite_mul_zero_add ht, Bool.and_eq_true, Bool.and_eq_true,
      and_assoc])

theorem zeroIf_sampleX (ht : (t == 0) = true) : ZeroIf curve.HasFiniteX (curve.sampleX t) :=
  zeroIf_horner ht ..

theorem zeroIf_sampleY (ht : (t == 0) = true) : ZeroIf curve.HasFiniteY (curve.sampleY t) :=
  zeroIf_horner ht ..

/-- Zeros are near each other. -/
theorem isNear_zeros {a b : Float} (ha : (a == 0) = true) (hb : (b == 0) = true) :
    isNear 1e-6 a b = true := by
  have hzero : (a - b == 0) = true :=
    sub_self_beq_zero (isFinite_of_beq_zero ha) (BEq.trans ha (BEq.symm hb))
  unfold isNear
  dsimp only
  rcases eq_of_beq_zero hzero with hdifference | hdifference <;> rw [hdifference] <;> decide

/-- The parameter of a zero is found at once. -/
theorem solve_at_zero (hfinite : curve.HasFiniteX) (ht : (t == 0) = true) :
    curve.solve 1e-6 t = curve.sampleY t := by
  have hnewton : curve.newton 1e-6 t 8 t = some t := by
    rw [newton, if_pos (isNear_zeros ((zeroIf_sampleX ht).zero hfinite) ht)]
  rw [solve, solveX, hnewton]

/-- Control points between 0 and 1 make finite coefficients. -/
theorem hasFiniteX_ofControlPoints {x₁ x₂ : Float} (y₁ y₂ : Float) (h₁ : WithinNat 1 x₁)
    (h₂ : WithinNat 1 x₂) : (ofControlPoints x₁ y₁ x₂ y₂).HasFiniteX := by
  have hone : WithinNat 1 1.0 := ⟨rfl, by rw [show double 1.0 = 1 from double_one]; norm_num⟩
  have hthree : WithinNat 3 3.0 := ⟨rfl, by norm_num⟩
  have hlinear : WithinNat 3 (3.0 * x₁) := withinNat_mul (by decide) hthree h₁
  have hapart : WithinNat 6 (3.0 * (x₂ - x₁)) :=
    withinNat_mul (by decide) hthree (withinNat_sub (by decide) h₂ h₁)
  have hquadratic : WithinNat 9 (3.0 * (x₂ - x₁) - 3.0 * x₁) :=
    withinNat_sub (by decide) hapart hlinear
  have hcubic : WithinNat 13 (1.0 - 3.0 * x₁ - (3.0 * (x₂ - x₁) - 3.0 * x₁)) :=
    withinNat_sub (by decide) (withinNat_sub (by decide) hone hlinear) hquadratic
  exact ⟨hcubic.finite, hquadratic.finite, hlinear.finite⟩

end UnitBezier

namespace Interpolation

/-- Nothing on the way to the weight at the lower stop is out of range: no power of the base is lost
in rounding, and no coefficient of the curve is infinite. -/
def StartsAtZero : Interpolation → (lower upper : Float) → Prop
  | .step, _, _ | .linear, _, _ => True
  | .exponential base, lower, upper => (base == 1) = true ∨
      (power base (upper - lower)).isNaN = false ∧ (power base (upper - lower) == 1) = false
  | .cubicBezier x₁ y₁ x₂ y₂, _, _ => (UnitBezier.ofControlPoints x₁ y₁ x₂ y₂).HasFiniteY

/-- Control points that are accepted have `x` between 0 and 1. -/
theorem withinNat_of_interpolation {kind : Json} {x₁ y₁ x₂ y₂ : Float}
    (h : Typing.interpolation kind = .ok (.cubicBezier x₁ y₁ x₂ y₂)) :
    WithinNat 1 x₁ ∧ WithinNat 1 x₂ := by
  have hunit {x : Float} (hx : (decide (0 ≤ x) && decide (x ≤ 1)) = true) : WithinNat 1 x := by
    rw [Bool.and_eq_true, decide_eq_true_iff, decide_eq_true_iff] at hx
    obtain ⟨hfinite, hlower, hupper⟩ := betweenDoubles_of_le rfl rfl hx.1 hx.2
    rw [double_zero] at hlower
    rw [double_one] at hupper
    exact ⟨hfinite, by rwa [abs_of_nonneg hlower, Nat.cast_one]⟩
  unfold Typing.interpolation at h
  dsimp only at h
  split at h
  · cases h
  · cases h
  · split at h
    next hrange =>
      obtain ⟨rfl, rfl, rfl, rfl⟩ := cubicBezier.inj (Except.ok.inj h)
      rw [Bool.and_eq_true] at hrange
      exact ⟨hunit hrange.1, hunit hrange.2⟩
    next => contradiction
  · contradiction

/-! ## The weight at the lower stop -/

variable {x lower upper : Float}

/-- There is some way between the stops. -/
theorem difference_of_lt (hlt : lower < upper) : (upper - lower == 0) = false := by
  refine Bool.eq_false_of_not_eq_true fun hzero => ?_
  have hposition := ((lt_iff lower upper).mp hlt).2.2
  exact hposition.ne' ((beq_iff upper lower).mp (sub_beq_zero_iff.mp hzero).2).2.2

theorem isNaN_difference (hfinite : lower.isFinite = true) (hlt : lower < upper) :
    (upper - lower).isNaN = false :=
  (isNaN_sub_of_isFinite hfinite).trans ((lt_iff lower upper).mp hlt).2.1

/-- A power less one is a zero just for the power one. -/
theorem sub_one_beq_zero (p : Float) : (p - 1 == 0) = (p == 1) := by
  rw [Bool.eq_iff_iff, sub_beq_zero_iff]
  refine ⟨And.right, fun h => ⟨?_, h⟩⟩
  rcases eq_or_zeros_of_beq h with rfl | ⟨_, hone⟩
  · rfl
  · exact absurd hone (by decide)

theorem zeroIf_exponentialFactor (base : Float) (hx : (x == lower) = true)
    (hfinite : lower.isFinite = true) (hlt : lower < upper) :
    ZeroIf (StartsAtZero (.exponential base) lower upper)
      (exponentialFactor base x lower upper) := by
  have hdifference := difference_of_lt hlt
  have hprogress : (x - lower == 0) = true :=
    sub_self_beq_zero (isFinite_of_beq hx hfinite) hx
  unfold exponentialFactor
  dsimp only
  rw [hdifference, if_neg Bool.false_ne_true]
  by_cases hbase : (base == 1) = true
  · -- the way to the lower stop over the way between the stops
    rw [if_pos hbase]
    exact (zeroIf_zero_div hprogress _).congr (iff_of_true
      ⟨isNaN_difference hfinite hlt, hdifference⟩ (Or.inl hbase))
  · -- the power of no way is one
    rw [if_neg hbase, power_of_beq_zero base hprogress]
    refine (zeroIf_zero_div (by decide) _).congr ?_
    rw [isNaN_sub_of_isFinite rfl, sub_one_beq_zero]
    exact ⟨Or.inr, fun h => h.resolve_left hbase⟩

/-- **The weight at the lower stop.** -/
theorem zeroIf_factor {interpolation : Interpolation} {kind : Json}
    (hkind : Typing.interpolation kind = .ok interpolation) (hx : (x == lower) = true)
    (hfinite : lower.isFinite = true) (hlt : lower < upper) :
    ZeroIf (interpolation.StartsAtZero lower upper) (interpolation.factor x lower upper) := by
  have hlinear : ZeroIf True (exponentialFactor 1 x lower upper) :=
    (zeroIf_exponentialFactor 1 hx hfinite hlt).congr (iff_of_true (Or.inl rfl) trivial)
  cases interpolation with
  | step => exact ⟨fun _ => (by decide : ((0 : Float) == 0) = true), fun h => absurd trivial h⟩
  | linear => exact hlinear
  | exponential base => exact zeroIf_exponentialFactor base hx hfinite hlt
  | cubicBezier x₁ y₁ x₂ y₂ =>
    obtain ⟨h₁, h₂⟩ := withinNat_of_interpolation hkind
    have hzero := hlinear.zero trivial
    rw [factor, UnitBezier.solve_at_zero (UnitBezier.hasFiniteX_ofControlPoints y₁ y₂ h₁ h₂) hzero]
    exact UnitBezier.zeroIf_sampleY hzero

/-! ## Even rates -/

/-- The way to the input is not longer than the way between the stops, not even after rounding. -/
theorem double_sub_le (hlower : lower ≤ x) (hupper : x < upper)
    (hfinite : (x - lower).isFinite = true) (hfiniteD : (upper - lower).isFinite = true) :
    0 ≤ double (x - lower) ∧ double (x - lower) ≤ double (upper - lower) := by
  obtain ⟨hx, hl⟩ := isFinite_of_sub hfinite
  obtain ⟨hu, _⟩ := isFinite_of_sub hfiniteD
  have hcanonicalX := (isCanonical_unpack_double x).1
  have hcanonicalL := (isCanonical_unpack_double lower).1
  have hcanonicalU := (isCanonical_unpack_double upper).1
  have hroundsX := rounds_sub hcanonicalX hcanonicalL hx hl
  have hroundsU := rounds_sub hcanonicalU hcanonicalL hu hl
  have hvalueX : double (x - lower) = _ := double_packed hroundsX.canonical hfinite
  have hvalueU : double (upper - lower) = _ := double_packed hroundsU.canonical hfiniteD
  have hle : double lower ≤ double x := (le_iff_double hl hx).mp hlower
  have hlt : double x < double upper := (lt_iff_double hx hu).mp hupper
  rw [hvalueX, hvalueU]
  constructor
  · exact hroundsX.ge 0 ⟨0, 0, Nat.two_pow_pos _, by decide, by simp⟩ (sub_nonneg.mpr hle)
  · exact value_le_of_lt hroundsX hroundsU (isNearest_sub hx hl) (isNearest_sub hu hl)
      (sub_lt_sub_right hlt _)

/-- A finite number over an infinite one is a zero. -/
theorem div_beq_zero_of_infinite {a d : Float} (ha : a.isFinite = true) (hd : d.isFinite = false)
    (hnan : d.isNaN = false) : (a / d == 0) = true := by
  change a.toModel.unpack.isFinite = true at ha
  change d.toModel.unpack.isFinite = false at hd
  change d.toModel.unpack.isNaN = false at hnan
  change (packed (UnpackedFloat.div .binary64 a.toModel.unpack d.toModel.unpack) == 0) = true
  generalize a.toModel.unpack = u at ha ⊢
  generalize d.toModel.unpack = v at hd hnan ⊢
  cases v with
  | zero | finite | notANumber => contradiction
  | infinity =>
    cases u with
    | infinity | notANumber => contradiction
    | zero | finite => exact packed_zero_beq _

/-- Only a finite number has a finite quotient by any divisor. -/
theorem isFinite_of_div {a d : Float} (h : (a / d).isFinite = true) : a.isFinite = true :=
  isFinite_of_unpacked_div (isFinite_of_packed h)

theorem linearFactor_eq (hlt : lower < upper) :
    factor .linear x lower upper = (x - lower) / (upper - lower) := by
  change exponentialFactor 1 x lower upper = _
  unfold exponentialFactor
  dsimp only
  rw [difference_of_lt hlt, if_neg Bool.false_ne_true, if_pos (by decide)]

/-- **At an even rate** the weight is between 0 and 1 if the way to the input is finite. -/
theorem betweenDoubles_linear (hlower : lower ≤ x) (hupper : x < upper)
    (hfinite : (x - lower).isFinite = true) :
    BetweenDoubles 0 1 (factor .linear x lower upper) := by
  have hl := (isFinite_of_sub hfinite).2
  have hlt := lt_of_le_of_lt hlower hupper
  have hdifference := difference_of_lt hlt
  rw [linearFactor_eq hlt]
  cases hfiniteD : (upper - lower).isFinite with
  | false =>
    have hzero := div_beq_zero_of_infinite hfinite hfiniteD (isNaN_difference hl hlt)
    rcases eq_of_beq_zero hzero with h | h <;> rw [h]
    · exact ⟨rfl, le_rfl, zero_le_one⟩
    · exact ⟨rfl, le_rfl, zero_le_one⟩
  | true =>
    obtain ⟨hnonneg, hle⟩ := double_sub_le hlower hupper hfinite hfiniteD
    have hne : double (upper - lower) ≠ 0 := fun h =>
      Bool.false_ne_true (hdifference.symm.trans (beq_of_double_eq hfiniteD rfl h))
    have hpos : 0 < double (upper - lower) := lt_of_le_of_ne (hnonneg.trans hle) hne.symm
    have hzero : IsDouble 0 := by simpa using isDouble_double 0
    have hone : IsDouble 1 := by simpa using isDouble_double 1
    exact betweenDoubles_div hzero hone hfinite hfiniteD hne (div_nonneg hnonneg hpos.le)
      ((div_le_one hpos).mpr hle)

end Interpolation

end Symbology
