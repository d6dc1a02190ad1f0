import Mathlib.Data.Rat.Lemmas
import Mathlib.Tactic.Linarith
import Mathlib.Tactic.NormNum
import Mathlib.Tactic.Positivity
import Mathlib.Tactic.Ring
import Symbology.Interpolation.UnitBezier

set_option autoImplicit false

/-! # The parameter of a Bézier curve is found

On exact fractions, the search for the parameter of a given `x` ends near it, wherever between 0 and
1 the control points lie (`parameter_found`). Newton's method stops near `x` or gives up. Halving
keeps an interval at whose ends the curve is on both sides of `x` (`Brackets`), and each step halves
the way from the parameter to the ends. As the curve is nowhere steeper than 3 (`sampleX_sub_le`),
the last parameter is near `x`, though the search does not look at it again. -/

namespace Symbology.UnitBezier

/-- The difference of two fractions is below `epsilon`. -/
theorem isNear_iff {epsilon a b : ℚ} : isNear epsilon a b = true ↔ |a - b| < epsilon := by
  have hzero : (0.0 : ℚ) = 0 := by norm_num
  unfold isNear
  dsimp only
  rw [hzero]
  split
  next hneg => rw [abs_of_neg hneg, zero_sub, decide_eq_true_iff]
  next hnonneg => rw [abs_of_nonneg (not_lt.mp hnonneg), decide_eq_true_iff]

/-! ## Newton's method -/

/-- **Newton's method stops near `x`**, if it does not give up. -/
theorem near_of_newton {curve : UnitBezier ℚ} {epsilon x t found : ℚ} {steps : Nat}
    (h : curve.newton epsilon x steps t = some found) : |curve.sampleX found - x| < epsilon := by
  induction steps generalizing t with
  | zero => contradiction
  | succ steps ih =>
    rw [newton] at h
    split at h
    next hnear =>
      obtain rfl := Option.some.inj h
      exact isNear_iff.mp hnear
    next =>
      split at h
      · contradiction
      · exact ih h

/-! ## The slope of the curve -/

section Slope

variable {x₁ x₂ : ℚ} (y₁ y₂ : ℚ)

/-- The weights of the control points. -/
theorem sampleX_eq (x₁ x₂ t : ℚ) : (ofControlPoints x₁ y₁ x₂ y₂).sampleX t =
    3 * (1 - t) ^ 2 * t * x₁ + 3 * (1 - t) * t ^ 2 * x₂ + t ^ 3 := by
  simp only [ofControlPoints, sampleX]
  norm_num
  ring

theorem sampleX_zero (x₁ x₂ : ℚ) : (ofControlPoints x₁ y₁ x₂ y₂).sampleX 0 = 0 := by
  rw [sampleX_eq]
  ring

theorem sampleX_one (x₁ x₂ : ℚ) : (ofControlPoints x₁ y₁ x₂ y₂).sampleX 1 = 1 := by
  rw [sampleX_eq]
  ring

/-- The slope of the chord between two parameters, as a mean of the slopes that it has when each
control point is at 0 or at 1. -/
def chord (x₁ x₂ s t : ℚ) : ℚ :=
  let squares := t ^ 2 + t * s + s ^ 2
  (1 - x₁) * (1 - x₂) * squares + x₁ * (1 - x₂) * (4 * squares - 6 * (t + s) + 3) +
    (1 - x₁) * x₂ * (3 * (t + s) - 2 * squares) + x₁ * x₂ * (squares - 3 * (t + s) + 3)

theorem sampleX_sub (x₁ x₂ s t : ℚ) : (ofControlPoints x₁ y₁ x₂ y₂).sampleX t -
    (ofControlPoints x₁ y₁ x₂ y₂).sampleX s = (t - s) * chord x₁ x₂ s t := by
  rw [sampleX_eq, sampleX_eq, chord]
  ring

/-- A chord is not steeper than 3. -/
theorem chord_le {s t : ℚ} (h₁ : x₁ ∈ Set.Icc 0 1) (h₂ : x₂ ∈ Set.Icc 0 1) (hs : s ∈ Set.Icc 0 1)
    (ht : t ∈ Set.Icc 0 1) : chord x₁ x₂ s t ≤ 3 := by
  obtain ⟨hs0, hs1⟩ := hs
  obtain ⟨ht0, ht1⟩ := ht
  have hts : t * s ≤ t := mul_le_of_le_one_right ht0 hs1
  have hst : t * s ≤ s := mul_le_of_le_one_left hs0 ht1
  have htt : t ^ 2 ≤ t := pow_le_of_le_one ht0 ht1 two_ne_zero
  have hss : s ^ 2 ≤ s := pow_le_of_le_one hs0 hs1 two_ne_zero
  have hx₁ : 0 ≤ 1 - x₁ := sub_nonneg.mpr h₁.2
  have hx₂ : 0 ≤ 1 - x₂ := sub_nonneg.mpr h₂.2
  obtain ⟨h₁0, _⟩ := h₁
  obtain ⟨h₂0, _⟩ := h₂
  -- the four slopes
  have h00 : t ^ 2 + t * s + s ^ 2 ≤ 3 := by linarith
  have h10 : 4 * (t ^ 2 + t * s + s ^ 2) - 6 * (t + s) + 3 ≤ 3 := by linarith
  have h01 : 3 * (t + s) - 2 * (t ^ 2 + t * s + s ^ 2) ≤ 3 := by
    have hpeak : 0 ≤ 3 * (t + s - 1) ^ 2 + (t - s) ^ 2 := by positivity
    linarith
  have h11 : t ^ 2 + t * s + s ^ 2 - 3 * (t + s) + 3 ≤ 3 := by linarith
  calc chord x₁ x₂ s t
      ≤ (1 - x₁) * (1 - x₂) * 3 + x₁ * (1 - x₂) * 3 + (1 - x₁) * x₂ * 3 + x₁ * x₂ * 3 := by
        unfold chord
        dsimp only
        gcongr
    _ = 3 := by ring

/-- **Between two parameters, `x` grows by three times their distance at most.** -/
theorem sampleX_sub_le {s t : ℚ} (h₁ : x₁ ∈ Set.Icc 0 1) (h₂ : x₂ ∈ Set.Icc 0 1) (hs : 0 ≤ s)
    (hle : s ≤ t) (ht : t ≤ 1) : (ofControlPoints x₁ y₁ x₂ y₂).sampleX t -
      (ofControlPoints x₁ y₁ x₂ y₂).sampleX s ≤ 3 * (t - s) := by
  have hchord := chord_le h₁ h₂ ⟨hs, hle.trans ht⟩ ⟨hs.trans hle, ht⟩
  rw [sampleX_sub, mul_comm]
  exact mul_le_mul_of_nonneg_right hchord (sub_nonneg.mpr hle)

end Slope

/-! ## Halving -/

/-- What holds before each step of halving: on the way from `low` to `high` the curve passes `x`,
the parameter `t` lies between them, and neither of them is farther from it than `reach`. -/
structure Brackets (curve : UnitBezier ℚ) (x reach low t high : ℚ) : Prop where
  nonneg : 0 ≤ low
  low_le : low ≤ t
  le_high : t ≤ high
  le_one : high ≤ 1
  below : curve.sampleX low < x
  above : x ≤ curve.sampleX high
  reachLow : t - low ≤ reach
  reachHigh : high - t ≤ reach

section Halving

variable {curve : UnitBezier ℚ} {x reach low t high : ℚ}

/-- A step to the upper half. -/
theorem Brackets.upper (h : Brackets curve x reach low t high) (hlt : curve.sampleX t < x) :
    Brackets curve x (reach / 2) t (t + (high - t) * 0.5) high := by
  obtain ⟨hnonneg, hlow, hhigh, hone, _, habove, _, hreach⟩ := h
  have hhalf : (0.5 : ℚ) = 1 / 2 := by norm_num
  rw [hhalf]
  constructor <;> linarith

/-- A step to the lower half. -/
theorem Brackets.lower (h : Brackets curve x reach low t high) (hle : x ≤ curve.sampleX t) :
    Brackets curve x (reach / 2) low (low + (t - low) * 0.5) t := by
  obtain ⟨hnonneg, hlow, hhigh, hone, hbelow, _, hreach, _⟩ := h
  have hhalf : (0.5 : ℚ) = 1 / 2 := by norm_num
  rw [hhalf]
  constructor <;> linarith

variable {x₁ y₁ x₂ y₂ : ℚ}

/-- **The curve at `t` is near `x`**, the nearer both ends are to `t`. -/
theorem Brackets.near (h : Brackets (ofControlPoints x₁ y₁ x₂ y₂) x reach low t high)
    (h₁ : x₁ ∈ Set.Icc 0 1) (h₂ : x₂ ∈ Set.Icc 0 1) :
    |(ofControlPoints x₁ y₁ x₂ y₂).sampleX t - x| ≤ 3 * reach := by
  obtain ⟨hnonneg, hlow, hhigh, hone, hbelow, habove, hreachLow, hreachHigh⟩ := h
  have hfromLow := sampleX_sub_le y₁ y₂ h₁ h₂ hnonneg hlow (hhigh.trans hone)
  have htoHigh := sampleX_sub_le y₁ y₂ h₁ h₂ (hnonneg.trans hlow) hhigh hone
  rw [abs_le]
  constructor <;> linarith

/-- **Halving ends near `x`**: within `epsilon`, or the search was cut off, and then the ends have
come closer by half with each step. -/
theorem near_of_brackets {epsilon : ℚ} (h₁ : x₁ ∈ Set.Icc 0 1) (h₂ : x₂ ∈ Set.Icc 0 1) (steps : Nat)
    (h : Brackets (ofControlPoints x₁ y₁ x₂ y₂) x reach low t high) :
    let found := (ofControlPoints x₁ y₁ x₂ y₂).bisect epsilon x steps low high t
    |(ofControlPoints x₁ y₁ x₂ y₂).sampleX found - x| < epsilon ∨
      |(ofControlPoints x₁ y₁ x₂ y₂).sampleX found - x| ≤ 3 * (reach / 2 ^ steps) := by
  induction steps generalizing reach low t high with
  | zero =>
    right
    rw [pow_zero, div_one]
    exact h.near h₁ h₂
  | succ steps ih =>
    rw [pow_succ', ← div_div]
    dsimp only
    rw [bisect]
    split
    next hnear => exact Or.inl (isNear_iff.mp hnear)
    next =>
      split
      next hlt => exact ih (h.upper hlt)
      next hnotLt => exact ih (h.lower (not_lt.mp hnotLt))

end Halving

/-! ## The search -/

/-- **The search ends near `x`**, if this asks for no more than what its steps can give. -/
theorem solveX_near {x₁ x₂ x epsilon : ℚ} (y₁ y₂ : ℚ) (h₁ : x₁ ∈ Set.Icc 0 1)
    (h₂ : x₂ ∈ Set.Icc 0 1) (hx : x ∈ Set.Icc 0 1) (hepsilon : 3 / 2 ^ 64 < epsilon) :
    |(ofControlPoints x₁ y₁ x₂ y₂).sampleX ((ofControlPoints x₁ y₁ x₂ y₂).solveX epsilon x) - x| <
      epsilon := by
  have hzero : (0.0 : ℚ) = 0 := by norm_num
  have hone : (1.0 : ℚ) = 1 := by norm_num
  have hpositive : 0 < epsilon := lt_trans (by norm_num) hepsilon
  rw [solveX, hzero, hone]
  split
  next found hfound => exact near_of_newton hfound
  next =>
    split
    next hle =>
      obtain rfl : x = 0 := le_antisymm hle hx.1
      rwa [sampleX_zero, sub_zero, abs_zero]
    next hpos =>
      split
      next hge =>
        obtain rfl : x = 1 := le_antisymm hx.2 hge
        rwa [sampleX_one, sub_self, abs_zero]
      next =>
        have hbelow : (ofControlPoints x₁ y₁ x₂ y₂).sampleX 0 < x := by
          rw [sampleX_zero]
          exact not_le.mp hpos
        have habove : x ≤ (ofControlPoints x₁ y₁ x₂ y₂).sampleX 1 := by
          rw [sampleX_one]
          exact hx.2
        have hbrackets : Brackets (ofControlPoints x₁ y₁ x₂ y₂) x 1 0 x 1 :=
          ⟨le_rfl, hx.1, hx.2, le_rfl, hbelow, habove, (sub_zero x).trans_le hx.2,
            sub_le_self 1 hx.1⟩
        rcases near_of_brackets h₁ h₂ 64 hbrackets with hnear | hcut
        · exact hnear
        · rw [mul_one_div] at hcut
          exact hcut.trans_lt hepsilon

/-- **The parameter of `x` is found.** With control points and an `x` between 0 and 1, the curve is
within a millionth of `x` at the parameter that is found, in whichever way the search ends. -/
theorem parameter_found {x₁ x₂ x : ℚ} (y₁ y₂ : ℚ) (h₁ : x₁ ∈ Set.Icc 0 1) (h₂ : x₂ ∈ Set.Icc 0 1)
    (hx : x ∈ Set.Icc 0 1) :
    |(ofControlPoints x₁ y₁ x₂ y₂).sampleX ((ofControlPoints x₁ y₁ x₂ y₂).solveX 1e-6 x) - x| <
      1e-6 :=
  solveX_near y₁ y₂ h₁ h₂ hx (by norm_num)

/-- Where the curve starts out flat, Newton's method gives up, and the parameter is found by
halving. -/
theorem parameter_found_flat :
    (0 : ℚ) ∈ Set.Icc 0 1 ∧ (1 / 10000 : ℚ) ∈ Set.Icc 0 1 ∧
      (ofControlPoints 0 0 0 1).newton 1e-6 (1 / 10000 : ℚ) 8 (1 / 10000) = none ∧
      |(ofControlPoints 0 0 0 1).sampleX
        ((ofControlPoints 0 0 0 1).solveX 1e-6 (1 / 10000 : ℚ)) - 1 / 10000| < 1e-6 := by
  have hzero : (0 : ℚ) ∈ Set.Icc 0 1 := ⟨le_rfl, zero_le_one⟩
  have hx : (1 / 10000 : ℚ) ∈ Set.Icc 0 1 := by norm_num
  exact ⟨hzero, hx, by decide +kernel, parameter_found 0 1 hzero hzero hx⟩

end Symbology.UnitBezier
