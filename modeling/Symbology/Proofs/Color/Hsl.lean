import Symbology.Color.Hsl
import Symbology.Proofs.Color.Channels

set_option autoImplicit false

/-! # Channels by hue, saturation and lightness

The channels are brought between 0 and 1 at the end, so it only matters that no step before meets
infinities. With a finite hue none does: whole turns do not lead beyond the greatest number
(`between_turns`), and what follows grows by a factor of two at most (`Within`). With another hue
the place in its sector is not a number, and spoils a channel (`isReal_ofHsl_iff`). -/

namespace Symbology.Color

open Number
open Float.Model (UnpackedFloat)
open Float.Model.UnpackedFloat (Sign)

/-! ## The steps of the conversion -/

/-- The strongest channel, before lightness is added. -/
def chroma (saturation lightness : Float32) : Float32 :=
  (1 - (lightness * 2 - 1).abs) * saturation

/-- Where a hue in sixths of the circle lies in a pair of sectors, from 0 to 2. -/
def across (h : Float32) : Float32 :=
  h - floor (h * 0.5) * 2

/-- The channel between the strongest and the weakest, before lightness is added. -/
def second (degrees saturation lightness : Float32) : Float32 :=
  chroma saturation lightness * (1 - (across (normalHue degrees / 60) - 1).abs)

/-- What lightness adds to each channel. -/
def base (saturation lightness : Float32) : Float32 :=
  lightness - chroma saturation lightness * 0.5

theorem ofHsl_eq (degrees saturation lightness alpha : Float32) :
    ofHsl degrees saturation lightness alpha =
      let (red, green, blue) := sectorChannels (chroma saturation lightness)
        (second degrees saturation lightness) (sector? (normalHue degrees / 60))
      let lit (channel : Float32) := clamp 0 1 (channel + base saturation lightness)
      ⟨lit red, lit green, lit blue, alpha⟩ :=
  rfl

/-! ## Chroma and lightness -/

variable {d s l x y : Float32} {n m : ℕ}

theorem between_chroma (hs : InUnit s) (hl : InUnit l) : Between 0 1 (chroma s l) := by
  have hs := hs.between
  have hl := hl.between
  have hdouble : Between 0 2 (l * 2) := by
    refine between_mul isSingle_zero isSingle_two hl.finite rfl ?_ ?_ <;> rw [single_two]
    · linarith only [hl.lower]
    · linarith only [hl.upper]
  have hcentred : Between (-1) 1 (l * 2 - 1) := by
    refine between_sub isSingle_one.neg isSingle_one hdouble.finite rfl ?_ ?_ <;> rw [single_one]
    · linarith only [hdouble.lower]
    · linarith only [hdouble.upper]
  have habs : Between 0 1 (l * 2 - 1).abs :=
    between_abs isSingle_zero isSingle_one hcentred.finite (abs_nonneg _)
      (abs_le.mpr ⟨hcentred.lower, hcentred.upper⟩)
  have hroom : Between 0 1 (1 - (l * 2 - 1).abs) := by
    refine between_sub isSingle_zero isSingle_one rfl habs.finite ?_ ?_ <;> rw [single_one]
    · linarith only [habs.upper]
    · linarith only [habs.lower]
  exact between_mul isSingle_zero isSingle_one hroom.finite hs.finite
    (mul_nonneg hroom.lower hs.lower) (mul_le_one₀ hroom.upper hs.lower hs.upper)

theorem isFinite_base (hs : InUnit s) (hl : InUnit l) : (base s l).isFinite = true := by
  have hchroma := between_chroma hs hl
  have hl := hl.between
  have hhalf : Between 0 1 (chroma s l * 0.5) :=
    between_mul isSingle_zero isSingle_one hchroma.finite rfl
      (mul_nonneg hchroma.lower between_half.lower)
      (mul_le_one₀ hchroma.upper between_half.lower between_half.upper)
  refine (between_sub isSingle_one.neg isSingle_one hl.finite hhalf.finite ?_ ?_).finite
  · linarith only [hl.lower, hhalf.upper]
  · linarith only [hl.upper, hhalf.lower]

/-! ## Finite hues -/

theorem within_across (h : n < 125) (hx : Within n x) : Within (n + 2) (across x) := by
  have hpairs : Within n (floor (x * 0.5)) :=
    within_floor (by omega) (within_mul (by omega) hx within_half)
  exact within_sub (by omega) (hx.mono n.le_succ) (within_mul (by omega) hpairs within_two)

/-! ### Whole turns -/

theorem single_60 : single 60 = 60 := by
  have hunpack : (60 : Float32).toModel.unpack = .finite .positive 0xf00000 (-18) (by decide) := rfl
  rw [single_of_unpack hunpack]
  norm_num [signed]

theorem unpack_360 : (360 : Float32).toModel.unpack =
    .finite .positive 0xb40000 (-15) (by decide) :=
  rfl

theorem single_360 : single 360 = 360 := by
  rw [single_of_unpack unpack_360]
  norm_num [signed]

/-- The whole turns before an angle do not lead beyond bounds that are whole turns. -/
theorem between_turns {lo hi : ℚ} {a b : ℤ} (ha : IsSingle a) (hb : IsSingle b) (hlo : IsSingle lo)
    (hhi : IsSingle hi) (ha' : a * 360 = lo) (hb' : b * 360 = hi) (h : Between lo hi x) :
    Between lo hi (floor (x / 360) * 360) := by
  subst ha' hb'
  have hquotient : Between a b (x / 360) := by
    refine between_div ha hb h.finite rfl ?_ ?_ ?_ <;> rw [single_360]
    · norm_num
    · exact (le_div_iff₀ (by norm_num)).mpr h.lower
    · exact (div_le_iff₀ (by norm_num)).mpr h.upper
  have hfloor := between_floor ha hb hquotient.finite hquotient.lower hquotient.upper
  refine between_mul hlo hhi hfloor.finite rfl ?_ ?_ <;> rw [single_360]
  · exact mul_le_mul_of_nonneg_right hfloor.lower (by norm_num)
  · exact mul_le_mul_of_nonneg_right hfloor.upper (by norm_num)

/-- The turns in the greatest number, which is a whole number of turns. -/
def mostTurns : ℤ :=
  372827 * 2 ^ 101

theorem mostTurns_mul : (mostTurns * 360 : ℚ) = greatest .binary32 := by
  rw [greatest_single, mostTurns]
  norm_num

theorem isSingle_mostTurns : IsSingle mostTurns := by
  have h := isSingle_of_nat (by decide : 372827 < 2 ^ 24) (by decide : 101 ≤ 104)
  norm_num [mostTurns] at h ⊢
  exact h

/-- The angle that is left when whole turns are taken off is finite. -/
theorem isFinite_turned (hd : d.isFinite = true) :
    (d - floor (d / 360) * 360).isFinite = true := by
  have hgreatest := isSingle_greatest
  have hzero : IsSingle ((0 : ℤ) : ℚ) := by simpa using isSingle_zero
  have hleast : IsSingle ((-mostTurns : ℤ) : ℚ) := by simpa using isSingle_mostTurns.neg
  obtain ⟨hlower, hupper⟩ := abs_le.mp (abs_single_le d)
  -- an angle and its whole turns lie on one side of zero, so their difference is no greater
  rcases le_total 0 (single d) with hside | hside
  · have hturns := between_turns hzero isSingle_mostTurns isSingle_zero hgreatest (by simp)
      mostTurns_mul ⟨hd, hside, hupper⟩
    refine (between_sub hgreatest.neg hgreatest hd hturns.finite ?_ ?_).finite
    · linarith only [hside, hturns.upper]
    · linarith only [hupper, hturns.lower]
  · have hturns := between_turns hleast hzero hgreatest.neg isSingle_zero
      (by push_cast; linarith only [mostTurns_mul]) (by simp) ⟨hd, hlower, hside⟩
    refine (between_sub hgreatest.neg hgreatest hd hturns.finite ?_ ?_).finite
    · linarith only [hlower, hturns.upper]
    · linarith only [hside, hturns.lower]

theorem isFinite_normalHue (hd : d.isFinite = true) : (normalHue d).isFinite = true := by
  unfold normalHue
  dsimp only
  split
  · rfl
  · exact isFinite_turned hd

theorem within_sixths (hx : x.isFinite = true) : Within 123 (x / 60) := by
  have hbound : |single x / 60| ≤ 2 ^ 123 := by
    have hgreatest := abs_single_le x
    rw [abs_div, abs_of_nonneg (by norm_num : (0 : ℚ) ≤ 60), div_le_iff₀ (by norm_num)]
    refine hgreatest.trans ?_
    rw [greatest_single]
    norm_num
  obtain ⟨hlower, hupper⟩ := abs_le.mp hbound
  have hsingle := isSingle_two_pow (by decide : 123 ≤ 127)
  refine within_of_between (between_div hsingle.neg hsingle hx rfl ?_ ?_ ?_) <;> rw [single_60]
  · norm_num
  · exact hlower
  · exact hupper

theorem isFinite_second (hd : d.isFinite = true) (hs : InUnit s) (hl : InUnit l) :
    (second d s l).isFinite = true := by
  have hchroma := between_chroma hs hl
  have hwithin : Within 0 (chroma s l) :=
    ⟨hchroma.finite, by rw [abs_of_nonneg hchroma.lower, pow_zero]; exact hchroma.upper⟩
  have hacross := within_across (by decide) (within_sixths (isFinite_normalHue hd))
  have hcentred := within_sub (by decide) hacross (within_one.mono (by decide))
  have hroom := within_sub (by decide) (within_one.mono (by decide))
    (within_abs (by decide) hcentred)
  exact (within_mul (by decide) hwithin hroom).finite

/-! ## Other hues -/

theorem exists_infinity (hd : d.isFinite = false) (hnumber : d.isNaN = false) :
    ∃ sign, d.toModel.unpack = .infinity sign := by
  change d.toModel.unpack.isFinite = false at hd
  change d.toModel.unpack.isNaN = false at hnumber
  cases h : d.toModel.unpack with
  | infinity sign => exact ⟨sign, rfl⟩
  | zero | finite =>
    rw [h] at hd
    contradiction
  | notANumber =>
    rw [h] at hnumber
    contradiction

theorem unpack_infinite_div {sign : Sign} (h : d.toModel.unpack = .infinity sign) :
    (d / 360).toModel.unpack = .infinity sign := by
  change (Float32.ofModel (Float32.Model.pack
    (UnpackedFloat.div .binary32 d.toModel.unpack (360 : Float32).toModel.unpack))).toModel.unpack = _
  rw [h, unpack_360]
  cases sign <;> rfl

theorem unpack_infinite_mul {sign : Sign} (h : d.toModel.unpack = .infinity sign) :
    (d * 360).toModel.unpack = .infinity sign := by
  change (Float32.ofModel (Float32.Model.pack
    (UnpackedFloat.mul .binary32 d.toModel.unpack (360 : Float32).toModel.unpack))).toModel.unpack = _
  rw [h, unpack_360]
  cases sign <;> rfl

theorem floor_of_infinite {sign : Sign} (h : d.toModel.unpack = .infinity sign) :
    floor d = d := by
  unfold floor
  rw [h]

/-- An infinite angle is left with no number when as many turns are taken off. -/
theorem isNaN_turned (hd : d.isFinite = false) : (d - floor (d / 360) * 360).isNaN = true := by
  cases hnumber : d.isNaN with
  | true => exact isNaN_sub_left hnumber _
  | false =>
    obtain ⟨sign, hinfinite⟩ := exists_infinity hd hnumber
    have hquotient := unpack_infinite_div hinfinite
    rw [isNaN_sub, floor_of_infinite hquotient, unpack_infinite_mul hquotient, hinfinite]
    cases sign <;> rfl

theorem isNaN_normalHue (hd : d.isFinite = false) : (normalHue d).isNaN = true := by
  have hturned := isNaN_turned hd
  unfold normalHue
  dsimp only
  rw [if_neg]
  · exact hturned
  · simp [isSubnormal, unpack_of_isNaN hturned, not_single_le_of_isNaN hturned]

theorem sector?_of_isNaN (h : x.isNaN = true) : sector? x = none := by
  simp [sector?, not_single_le_of_isNaN h]

theorem isNonzero_60 : IsNonzero 60 :=
  ⟨_, _, _, _, rfl⟩

theorem isNaN_second (hx : (normalHue d).isNaN = true) : (second d s l).isNaN = true := by
  have hsixths := (isNaN_div_of_isNonzero isNonzero_60).trans hx
  exact isNaN_mul_right (isNaN_sub_right (isNaN_abs (isNaN_sub_left (isNaN_sub_left hsixths _) _)) _) _

/-! ## The color -/

/-- What is added to the base of a channel is the chroma, the number below it, or nothing. -/
theorem sectorChannels_mem (chroma second : Float32) (sector : Option (Fin 5)) :
    let (red, green, blue) := sectorChannels chroma second sector
    (red = chroma ∨ red = second ∨ red = 0) ∧ (green = chroma ∨ green = second ∨ green = 0) ∧
      (blue = chroma ∨ blue = second ∨ blue = 0) := by
  rcases sector with _ | sector
  · simp [sectorChannels]
  · fin_cases sector <;> simp [sectorChannels]

/-- Every channel is in the range if the strongest, the one between and the base are finite. -/
theorem isReal_ofHsl {alpha : Float32} (hchroma : (chroma s l).isFinite = true)
    (hsecond : (second d s l).isFinite = true) (hbase : (base s l).isFinite = true)
    (halpha : InUnit alpha) : (ofHsl d s l alpha).IsReal := by
  have hlit (channel : Float32) (h : channel = chroma s l ∨ channel = second d s l ∨ channel = 0) :
      InUnit (clamp 0 1 (channel + base s l)) := by
    refine inUnit_clamp_iff.mpr (isNaN_add_of_isFinite ?_ hbase)
    rcases h with rfl | rfl | rfl
    · exact hchroma
    · exact hsecond
    · rfl
  obtain ⟨hred, hgreen, hblue⟩ :=
    sectorChannels_mem (chroma s l) (second d s l) (sector? (normalHue d / 60))
  rw [ofHsl_eq]
  exact ⟨hlit _ hred, hlit _ hgreen, hlit _ hblue, halpha⟩

/-- Red is spoiled by the base in every sector. -/
theorem not_isReal_of_base {alpha : Float32} (h : (base s l).isNaN = true) :
    ¬(ofHsl d s l alpha).IsReal := by
  rw [ofHsl_eq]
  intro hreal
  have hred := inUnit_clamp_iff.mp hreal.red
  rw [isNaN_add_right h] at hred
  contradiction

/-- What is no angle is in no sector but the last, where the number in between is blue. -/
theorem not_isReal_of_hue {alpha : Float32} (h : d.isFinite = false) :
    ¬(ofHsl d s l alpha).IsReal := by
  have hnan := isNaN_normalHue h
  rw [ofHsl_eq, sector?_of_isNaN ((isNaN_div_of_isNonzero isNonzero_60).trans hnan)]
  intro hreal
  have hblue : (second d s l + base s l).isNaN = false := inUnit_clamp_iff.mp hreal.blue
  rw [isNaN_add_left (isNaN_second hnan)] at hblue
  contradiction

theorem isNaN_base_of_saturation (h : s.isNaN = true) : (base s l).isNaN = true :=
  isNaN_sub_right (isNaN_mul_left (isNaN_mul_right h _) _) _

theorem isNaN_base_of_lightness (h : l.isNaN = true) : (base s l).isNaN = true :=
  isNaN_sub_left h _

/-- **The channels are in the range exactly when the hue is finite and the shares are numbers.** -/
theorem isReal_ofHsl_iff {alpha : Float32} :
    (ofHsl d (clamp 0 1 s) (clamp 0 1 l) alpha).IsReal ↔
      d.isFinite = true ∧ s.isNaN = false ∧ l.isNaN = false ∧ InUnit alpha := by
  constructor
  · intro hreal
    refine ⟨?_, ?_, ?_, hreal.alpha⟩
    · exact Bool.eq_true_of_not_eq_false fun h => not_isReal_of_hue h hreal
    · refine Bool.eq_false_of_not_eq_true fun h => not_isReal_of_base ?_ hreal
      rw [clamp_of_isNaN h]
      exact isNaN_base_of_saturation h
    · refine Bool.eq_false_of_not_eq_true fun h => not_isReal_of_base ?_ hreal
      rw [clamp_of_isNaN h]
      exact isNaN_base_of_lightness h
  · rintro ⟨hd, hs, hl, halpha⟩
    have hs := inUnit_clamp_iff.mpr hs
    have hl := inUnit_clamp_iff.mpr hl
    exact isReal_ofHsl (between_chroma hs hl).finite (isFinite_second hd hs hl)
      (isFinite_base hs hl) halpha

end Symbology.Color
