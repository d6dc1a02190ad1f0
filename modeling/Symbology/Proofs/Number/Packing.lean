import Symbology.Proofs.Number.Text

set_option autoImplicit false

/-! # Packing and unpacking

A number is stored as bits, and every operation unpacks its operands and packs its result. What is
packed comes back if it is in the one form that the format has for it (`IsCanonical`) and its
exponent is not too great for the format (`unpack_pack`). -/

namespace Symbology.Number

open Float.Model (UnpackedFloat Format)
open Float.Model.UnpackedFloat (Sign)

variable {spec : Format} {sign : Sign} {mantissa : ℕ} {exponent : ℤ}

/-! ## The parts of a packed number -/

theorem unpackSign_packComponents {exponent : BitVec spec.exponentBits}
    {mantissa : BitVec spec.mantissaBitsWithoutImplicit} :
    UnpackedFloat.unpackSign (UnpackedFloat.packComponents spec sign exponent mantissa) =
      sign.toBitVec := by
  refine BitVec.eq_of_getLsbD_eq (fun i hi => ?_)
  obtain rfl : i = 0 := by omega
  simp [UnpackedFloat.unpackSign, UnpackedFloat.packComponents, BitVec.getLsbD_append,
    BitVec.getElem_append]

theorem ofBitVec_toBitVec (sign : Sign) : Sign.ofBitVec sign.toBitVec = sign := by
  cases sign <;> rfl

/-- An exponent of zeros is not one of ones. -/
theorem zero_ne_ones (spec : Format) : 0#(spec.exponentBits) ≠ -1#_ := by
  have htwo : 1 < 2 ^ spec.exponentBits := Nat.one_lt_two_pow spec.he.ne'
  intro h
  have hnat := congrArg BitVec.toNat h
  simp only [BitVec.neg_one_eq_allOnes, BitVec.toNat_allOnes, BitVec.toNat_zero] at hnat
  omega

theorem unpack_packedZero (spec : Format) (sign : Sign) :
    UnpackedFloat.unpack spec (UnpackedFloat.packedZero spec sign) = .zero sign := by
  unfold UnpackedFloat.unpack UnpackedFloat.packedZero
  simp only [UnpackedFloat.unpackMantissa_packComponents,
    UnpackedFloat.unpackExponent_packComponents, unpackSign_packComponents, ofBitVec_toBitVec]
  simp [spec.he.ne']

theorem unpack_packedInfinity (spec : Format) (sign : Sign) :
    UnpackedFloat.unpack spec (UnpackedFloat.packedInfinity spec sign) = .infinity sign := by
  unfold UnpackedFloat.unpack UnpackedFloat.packedInfinity
  simp only [UnpackedFloat.unpackMantissa_packComponents,
    UnpackedFloat.unpackExponent_packComponents, unpackSign_packComponents, ofBitVec_toBitVec]
  simp

/-- Only what is finite is packed as a finite number. -/
theorem isFinite_of_unpack_pack {u : UnpackedFloat}
    (h : (UnpackedFloat.unpack spec (UnpackedFloat.pack spec u)).isFinite = true) :
    u.isFinite = true := by
  cases u with
  | zero | finite => rfl
  | infinity sign =>
    rw [UnpackedFloat.pack, unpack_packedInfinity] at h
    contradiction
  | notANumber =>
    rw [UnpackedFloat.pack, UnpackedFloat.unpack_packedNaN] at h
    contradiction

/-! ## The exponents of a format -/

theorem two_mul_half (spec : Format) :
    2 ^ spec.exponentBits = 2 * 2 ^ (spec.exponentBits - 1) := by
  rw [← pow_succ', Nat.sub_add_cancel spec.he]

/-- One digit of the mantissa is not stored. -/
theorem mantissaBits_eq (spec : Format) :
    (spec.mantissaBits : ℤ) = 1 + spec.mantissaBitsWithoutImplicit := by
  rw [Format.mantissaBits]
  push_cast
  rfl

theorem minExponent_eq (spec : Format) :
    spec.minExponent = 3 - 2 ^ (spec.exponentBits - 1) - spec.mantissaBits :=
  rfl

theorem two_le_half (hspec : 2 ≤ spec.exponentBits) : (2 : ℤ) ≤ 2 ^ (spec.exponentBits - 1) :=
  calc (2 : ℤ) = 2 ^ 1 := (pow_one 2).symm
    _ ≤ 2 ^ (spec.exponentBits - 1) := pow_le_pow_right₀ one_le_two (by omega)

theorem exponentBias_eq (spec : Format) :
    (spec.exponentBias : ℤ) = 2 ^ (spec.exponentBits - 1) - 1 := by
  rw [Format.exponentBias, Nat.cast_sub Nat.one_le_two_pow]
  push_cast
  rfl

/-- The exponent as it is stored: it is neither all zeros nor all ones. -/
theorem toNat_biased (hleast : spec.minExponent ≤ exponent)
    (hgreatest : exponent + spec.mantissaBits ≤ 2 ^ (spec.exponentBits - 1)) :
    ((exponent + spec.exponentBias + spec.mantissaBitsWithoutImplicit).toNat : ℤ) =
        exponent + spec.exponentBias + spec.mantissaBitsWithoutImplicit ∧
      0 < (exponent + spec.exponentBias + spec.mantissaBitsWithoutImplicit).toNat ∧
      (exponent + spec.exponentBias + spec.mantissaBitsWithoutImplicit).toNat + 1 <
        2 ^ spec.exponentBits := by
  have hbias := exponentBias_eq spec
  rw [minExponent_eq] at hleast
  have hbits : spec.mantissaBits = 1 + spec.mantissaBitsWithoutImplicit := rfl
  have hhalf := two_mul_half spec
  have hcast : ((2 ^ (spec.exponentBits - 1) : ℕ) : ℤ) = 2 ^ (spec.exponentBits - 1) := by
    push_cast
    rfl
  omega

/-! ## Finite numbers -/

/-- A number with all digits. -/
theorem unpack_pack_normal (hpos : 0 < mantissa) (hlt : mantissa < 2 ^ spec.mantissaBits)
    (hfull : 2 ^ spec.mantissaBitsWithoutImplicit ≤ mantissa)
    (hleast : spec.minExponent ≤ exponent)
    (hgreatest : exponent + spec.mantissaBits ≤ 2 ^ (spec.exponentBits - 1)) :
    UnpackedFloat.unpack spec (UnpackedFloat.pack spec (.finite sign mantissa exponent hpos)) =
      .finite sign mantissa exponent hpos := by
  obtain ⟨hbiased, hzero, hones⟩ := toNat_biased hleast hgreatest
  generalize hvalue : (exponent + spec.exponentBias + spec.mantissaBitsWithoutImplicit).toNat =
    biased at hbiased hzero hones
  have hlog : mantissa.log2 + 1 = spec.mantissaBits := by
    have hhigh := (Nat.log2_lt hpos.ne').mpr hlt
    have hlow := (Nat.le_log2 hpos.ne').mpr hfull
    have hbits : spec.mantissaBits = 1 + spec.mantissaBitsWithoutImplicit := rfl
    omega
  have hpack : UnpackedFloat.pack spec (.finite sign mantissa exponent hpos) =
      UnpackedFloat.packComponents spec sign (BitVec.ofNat _ biased) (BitVec.ofNat _ mantissa) := by
    simp only [UnpackedFloat.pack, hvalue, hlog, if_neg (not_le.mpr hones), if_true]
  have hstored : (BitVec.ofNat spec.exponentBits biased).toNat = biased := by
    rw [BitVec.toNat_ofNat, Nat.mod_eq_of_lt (by omega)]
  have hnotOnes : BitVec.ofNat spec.exponentBits biased ≠ -1#_ := by
    intro h
    have hnat := congrArg BitVec.toNat h
    rw [hstored, BitVec.neg_one_eq_allOnes, BitVec.toNat_allOnes] at hnat
    omega
  have hnotZero : BitVec.ofNat spec.exponentBits biased ≠ 0#_ := by
    intro h
    have hnat := congrArg BitVec.toNat h
    rw [hstored, BitVec.toNat_zero] at hnat
    omega
  -- the leading digit is not stored
  have hmantissa : (1#1 ++ BitVec.ofNat spec.mantissaBitsWithoutImplicit mantissa).toNat =
      mantissa := by
    have htop : 2 ^ spec.mantissaBits = 2 * 2 ^ spec.mantissaBitsWithoutImplicit := by
      rw [Format.mantissaBits, pow_add, pow_one]
    have hmod : mantissa % 2 ^ spec.mantissaBitsWithoutImplicit =
        mantissa - 2 ^ spec.mantissaBitsWithoutImplicit := by
      rw [Nat.mod_eq_sub_mod hfull, Nat.mod_eq_of_lt (by omega)]
    rw [toNat_one_append, BitVec.toNat_ofNat, hmod, Nat.add_sub_cancel' hfull]
  rw [hpack, UnpackedFloat.unpack]
  simp only [UnpackedFloat.unpackMantissa_packComponents,
    UnpackedFloat.unpackExponent_packComponents, unpackSign_packComponents, ofBitVec_toBitVec,
    hnotOnes, hnotZero, if_false, hstored, hmantissa]
  congr 1
  omega

/-- A number with the least exponent and fewer digits. -/
theorem unpack_pack_subnormal (hpos : 0 < mantissa)
    (hlt : mantissa < 2 ^ spec.mantissaBitsWithoutImplicit) (hspec : 2 ≤ spec.exponentBits) :
    UnpackedFloat.unpack spec
        (UnpackedFloat.pack spec (.finite sign mantissa spec.minExponent hpos)) =
      .finite sign mantissa spec.minExponent hpos := by
  have hbits := mantissaBits_eq spec
  have hleast := minExponent_eq spec
  have hhalf := two_le_half hspec
  have hself : spec.minExponent ≤ spec.minExponent := le_rfl
  obtain ⟨hbiased, _, hones⟩ := toNat_biased hself (by omega)
  have hlog : ¬mantissa.log2 + 1 = spec.mantissaBits := by
    have hhigh := (Nat.log2_lt hpos.ne').mpr hlt
    omega
  have hpack : UnpackedFloat.pack spec (.finite sign mantissa spec.minExponent hpos) =
      UnpackedFloat.packComponents spec sign 0#_ (BitVec.ofNat _ mantissa) := by
    simp only [UnpackedFloat.pack, hlog, if_neg (not_le.mpr hones), if_false]
  have hstored : (BitVec.ofNat spec.mantissaBitsWithoutImplicit mantissa).toNat = mantissa := by
    rw [BitVec.toNat_ofNat, Nat.mod_eq_of_lt hlt]
  have hnotZero : BitVec.ofNat spec.mantissaBitsWithoutImplicit mantissa ≠ 0#_ := by
    intro h
    have hnat := congrArg BitVec.toNat h
    rw [hstored, BitVec.toNat_zero] at hnat
    omega
  have hbias := exponentBias_eq spec
  rw [hpack, UnpackedFloat.unpack]
  simp only [UnpackedFloat.unpackMantissa_packComponents,
    UnpackedFloat.unpackExponent_packComponents, unpackSign_packComponents, ofBitVec_toBitVec,
    zero_ne_ones, if_false, if_true, hnotZero, dif_neg, not_false_eq_true, hstored,
    BitVec.toNat_zero]
  congr 1
  push_cast
  omega

/-! ## Numbers of a format -/

/-- The number is in the one form that the format has for it. -/
def IsCanonical (spec : Format) : UnpackedFloat → Prop
  | .finite _ mantissa exponent _ => Normalized spec mantissa exponent
  | _ => True

/-- The exponent of the number is not too great for the format. -/
def InRange (spec : Format) : UnpackedFloat → Prop
  | .finite _ _ exponent _ => exponent + spec.mantissaBits ≤ 2 ^ (spec.exponentBits - 1)
  | _ => True

/-- **What is packed comes back**, unless it is too great. -/
theorem unpack_pack (hspec : 2 ≤ spec.exponentBits) {u : UnpackedFloat}
    (hcanonical : IsCanonical spec u) (hrange : InRange spec u) (hnan : u.isNaN = false) :
    UnpackedFloat.unpack spec (UnpackedFloat.pack spec u) = u := by
  cases u with
  | notANumber => contradiction
  | infinity sign => exact unpack_packedInfinity spec sign
  | zero sign => exact unpack_packedZero spec sign
  | finite sign mantissa exponent hpos =>
    have hnormal : Normalized spec mantissa exponent := hcanonical
    by_cases hfull : 2 ^ spec.mantissaBitsWithoutImplicit ≤ mantissa
    · exact unpack_pack_normal hpos hnormal.lt hfull hnormal.least hrange
    · obtain rfl := hnormal.full.resolve_left hfull
      exact unpack_pack_subnormal hpos (not_le.mp hfull) hspec

/-- What is unpacked is a number of the format. -/
theorem isCanonical_unpack (hspec : 2 ≤ spec.exponentBits) (bits : BitVec spec.numBits) :
    IsCanonical spec (UnpackedFloat.unpack spec bits) ∧
      InRange spec (UnpackedFloat.unpack spec bits) := by
  cases hunpack : UnpackedFloat.unpack spec bits with
  | finite sign mantissa exponent hpos => exact normalized_of_unpack hspec hunpack
  | _ => exact ⟨trivial, trivial⟩

end Symbology.Number
