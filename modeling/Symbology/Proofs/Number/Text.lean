import Symbology.Number.Text
import Symbology.Proofs.Number.Numeral
import Symbology.Proofs.Number.Order
import Symbology.Proofs.Number.Shortest

set_option autoImplicit false

/-! # Floating-point numbers are read as they are written

The text of a finite number is a numeral (`DecimalStyle.isText_numeralOf`), in the form that JSON
demands, and it stands for the decimal that the number is printed through. So the number comes back
from the numeral, in every style (`DecimalStyle.IsText.toFloat_eq`). -/

namespace Symbology

open Float.Model (UnpackedFloat Format)
open Float.Model.UnpackedFloat (Sign)

namespace DecimalStyle

variable (style : DecimalStyle) (sign : Option Char) (d : Decimal)

/-! ## The text is a numeral -/

/-- The numeral of a decimal without an exponent. -/
def positionalNumeral : Numeral :=
  if 0 ≤ d.exponent then
    ⟨sign, d.digits ++ List.replicate d.exponent.toNat '0',
      if style.wholeFraction then some ['0'] else none, none⟩
  else if 0 < d.point then
    ⟨sign, d.digits.take d.point.toNat, some (d.digits.drop d.point.toNat), none⟩
  else ⟨sign, ['0'], some (List.replicate (-d.point).toNat '0' ++ d.digits), none⟩

/-- The numeral of a decimal with one digit before the point and an exponent. -/
def scientificNumeral : Numeral :=
  ⟨sign, d.digits.take 1, if d.digits.length = 1 then none else some (d.digits.drop 1),
    some ('e', style.exponentSign (d.point - 1), Nat.toDigits 10 (d.point - 1).natAbs)⟩

/-- The numeral of a decimal, with or without an exponent. -/
def numeral : Numeral :=
  if style.positional d.point then style.positionalNumeral sign d
  else style.scientificNumeral sign d

/-- The sign of a numeral, which is written for negative numbers only. -/
def signChar : Sign → Option Char
  | .negative => some '-'
  | .positive => none

theorem signed_eq (sign : Sign) (text : List Char) :
    signed sign text = (signChar sign).toList ++ text := by
  cases sign <;> rfl

theorem digits_ne_nil : d.digits ≠ [] :=
  Nat.toDigits_ne_nil

theorem chars_positionalNumeral :
    (style.positionalNumeral sign d).chars = sign.toList ++ style.positionalText d := by
  unfold positionalNumeral positionalText
  split
  · cases style.wholeFraction <;> simp [Numeral.chars]
  · split <;> simp [Numeral.chars]

theorem chars_scientificNumeral :
    (style.scientificNumeral sign d).chars = sign.toList ++ style.scientificText d := by
  unfold scientificNumeral scientificText exponentText
  have hne := digits_ne_nil d
  match hdigits : d.digits with
  | [] => exact absurd hdigits hne
  | [c] => simp [Numeral.chars]
  | c :: c' :: rest => simp [Numeral.chars]

/-- **The text of a decimal is the text of a numeral.** -/
theorem chars_numeral :
    (style.numeral sign d).chars = sign.toList ++ style.decimalText d := by
  unfold numeral decimalText
  split
  · exact chars_positionalNumeral style sign d
  · exact chars_scientificNumeral style sign d

/-- The sign of an exponent is a minus where the exponent is negative, and a plus or nothing
elsewhere. -/
theorem exponentSign_eq (e : ℤ) :
    e < 0 ∧ style.exponentSign e = some '-' ∨
      0 ≤ e ∧ (style.exponentSign e = some '+' ∨ style.exponentSign e = none) := by
  unfold exponentSign
  rcases lt_or_ge e 0 with hnegative | hnonnegative
  · exact Or.inl ⟨hnegative, if_pos hnegative⟩
  · rw [if_neg hnonnegative.not_gt]
    cases style.plusSign <;> simp [hnonnegative]

theorem isSign_of_mem_exponentSign {e : ℤ} {c : Char} (hc : c ∈ style.exponentSign e) :
    Numeral.isSign c = true := by
  rcases style.exponentSign_eq e with ⟨_, hsign⟩ | ⟨_, hsign | hsign⟩
  · obtain rfl := Option.some.inj (hsign.symm.trans hc)
    rfl
  · obtain rfl := Option.some.inj (hsign.symm.trans hc)
    rfl
  · rw [hsign] at hc
    contradiction

theorem isDigit_of_mem_digits {c : Char} (hc : c ∈ d.digits) : c.isDigit = true :=
  Numeral.isDigit_of_mem_toDigits hc

theorem isDigit_of_mem_zeros {n : ℕ} {c : Char} (hc : c ∈ List.replicate n '0') :
    c.isDigit = true := by
  rw [List.eq_of_mem_replicate hc]
  rfl

variable {sign}

theorem wellFormed_positionalNumeral (hsign : ∀ c ∈ sign, Numeral.isSign c = true) :
    (style.positionalNumeral sign d).WellFormed := by
  have hdigit := @isDigit_of_mem_digits d
  have hzeros := @isDigit_of_mem_zeros
  unfold positionalNumeral
  split
  · refine ⟨hsign, ?_, ?_, by simp, by simp, by simp⟩
    · intro c hc
      exact (List.mem_append.mp hc).elim hdigit hzeros
    · cases style.wholeFraction <;> simp
  · split
    · refine ⟨hsign, fun c hc => hdigit (List.mem_of_mem_take hc), ?_, by simp, by simp, by simp⟩
      rintro digits ⟨⟩ c hc
      exact hdigit (List.mem_of_mem_drop hc)
    · refine ⟨hsign, by simp, ?_, by simp, by simp, by simp⟩
      rintro digits ⟨⟩ c hc
      exact (List.mem_append.mp hc).elim hzeros hdigit

theorem wellFormed_scientificNumeral (hsign : ∀ c ∈ sign, Numeral.isSign c = true) :
    (style.scientificNumeral sign d).WellFormed := by
  have hdigit := @isDigit_of_mem_digits d
  refine ⟨hsign, fun c hc => hdigit (List.mem_of_mem_take hc), ?_, ?_, ?_, ?_⟩
  · intro digits hdigits c hc
    unfold scientificNumeral at hdigits
    dsimp only at hdigits
    split at hdigits
    · contradiction
    · obtain rfl := Option.some.inj hdigits
      exact hdigit (List.mem_of_mem_drop hc)
  · rintro e ⟨⟩
    rfl
  · rintro e ⟨⟩ c hc
    exact isSign_of_mem_exponentSign style hc
  · rintro e ⟨⟩ c hc
    exact Numeral.isDigit_of_mem_toDigits hc

theorem wellFormed_numeral (hsign : ∀ c ∈ sign, Numeral.isSign c = true) :
    (style.numeral sign d).WellFormed := by
  unfold numeral
  split
  · exact wellFormed_positionalNumeral style d hsign
  · exact wellFormed_scientificNumeral style d hsign

/-! ## The grammar of JSON -/

theorem head?_take_digits {n : ℕ} (hn : 0 < n) : (d.digits.take n).head? = d.digits.head? := by
  rw [List.head?_take, if_neg hn.ne']

theorem strict_positionalNumeral (hsign : sign ≠ some '+') (hpos : 0 < d.coefficient) :
    (style.positionalNumeral sign d).strict = true := by
  have hne := digits_ne_nil d
  have hhead : d.digits.head? ≠ some '0' := Numeral.head_toDigits hpos
  have hpoint : d.point = d.digits.length + d.exponent := rfl
  unfold positionalNumeral
  split
  · refine Numeral.strict_of hsign (List.append_ne_nil_of_left_ne_nil hne _) (Or.inl ?_) ?_ rfl
    · rwa [List.head?_append_of_ne_nil _ hne]
    · cases style.wholeFraction <;> simp
  · split
    next hinside =>
      have htake : 0 < d.point.toNat := by omega
      refine Numeral.strict_of hsign ?_ (Or.inl ?_) ?_ rfl
      · simp [List.take_eq_nil_iff, hne, htake.ne']
      · rwa [head?_take_digits d htake]
      · have hlength : d.point.toNat < d.digits.length := by omega
        simpa [List.drop_eq_nil_iff] using hlength
    next =>
      refine Numeral.strict_of hsign (by simp) (Or.inr rfl) ?_ rfl
      simp [hne]

/-- Zero is written with one zero before the point. -/
theorem strict_positionalNumeral_zero (hsign : sign ≠ some '+') :
    (style.positionalNumeral sign ⟨0, 0⟩).strict = true := by
  refine Numeral.strict_of hsign (by simp [positionalNumeral, Decimal.digits]) (Or.inr rfl) ?_ rfl
  cases hstyle : style.wholeFraction <;> simp [positionalNumeral, hstyle]

theorem strict_scientificNumeral (hsign : sign ≠ some '+') :
    (style.scientificNumeral sign d).strict = true := by
  have hlength : 0 < d.digits.length := Nat.length_toDigits_pos
  refine Numeral.strict_of hsign ?_ (Or.inr ?_) ?_ ?_
  · simp [scientificNumeral, List.take_eq_nil_iff, digits_ne_nil d]
  · simp [scientificNumeral, List.length_take]
    omega
  · unfold scientificNumeral
    split
    next => simp
    next hone =>
      intro hnone
      have hshort := List.drop_eq_nil_iff.mp (Option.some.inj hnone)
      omega
  · simp [scientificNumeral, Numeral.exponentComplete, Nat.toDigits_ne_nil]

theorem strict_numeral (hsign : sign ≠ some '+') (hpos : 0 < d.coefficient) :
    (style.numeral sign d).strict = true := by
  unfold numeral
  split
  · exact strict_positionalNumeral style d hsign hpos
  · exact strict_scientificNumeral style d hsign

/-! ## The number it stands for -/

variable (sign)

theorem ofDigitChars_digits : Nat.ofDigitChars 10 d.digits 0 = d.coefficient :=
  Nat.ofDigitChars_ten_toDigits

/-- What a numeral stands for depends on its digits and on where the point is. -/
theorem magnitude_eq {n : Numeral} {e : ℤ}
    (hdigits : Nat.ofDigitChars 10 (n.whole ++ n.fractionDigits) 0 = d.coefficient)
    (hexponent : n.exponentValue - n.fractionDigits.length = e) :
    n.magnitude = ⟨d.coefficient, e⟩ := by
  rw [Numeral.magnitude, hdigits, hexponent]

/-- Zeros behind the digits stand for a power of ten. -/
theorem ofDigitChars_zeros (n : ℕ) :
    Nat.ofDigitChars 10 (d.digits ++ List.replicate n '0') 0 = d.coefficient * 10 ^ n := by
  rw [Nat.ofDigitChars_append, ofDigitChars_digits, Nat.ofDigitChars_replicate_zero, mul_comm]

theorem value_positionalNumeral : (style.positionalNumeral sign d).magnitude.value = d.value := by
  have hpoint : d.point = d.digits.length + d.exponent := rfl
  unfold positionalNumeral
  split
  next hexponent =>
    obtain ⟨n, hn⟩ := Int.eq_ofNat_of_zero_le hexponent
    have hvalue : d.value = d.coefficient * 10 ^ n := by rw [Decimal.value, hn, zpow_natCast]
    rw [hvalue, hn, Int.toNat_natCast]
    cases style.wholeFraction with
    | true =>
      have hzeros : Nat.ofDigitChars 10 (d.digits ++ List.replicate n '0' ++ ['0']) 0 =
          d.coefficient * 10 ^ (n + 1) := by
        rw [List.append_assoc, ← List.replicate_succ', ofDigitChars_zeros]
      simp only [Numeral.magnitude, Numeral.fractionDigits, Numeral.exponentValue, if_true,
        Option.getD_some, hzeros, Decimal.value]
      norm_num [pow_succ]
      ring
    | false =>
      simp [Numeral.magnitude, Numeral.fractionDigits, Numeral.exponentValue, ofDigitChars_zeros,
        Decimal.value]
  next hexponent =>
    congr 1
    split
    next hinside =>
      refine magnitude_eq d ?_ ?_
      · simp [Numeral.fractionDigits, ofDigitChars_digits]
      · simp only [Numeral.exponentValue, Numeral.fractionDigits, Option.getD_some,
          List.length_drop]
        omega
    next hinside =>
      refine magnitude_eq d ?_ ?_
      · have hzeros : Nat.ofDigitChars 10
            (List.replicate ((-d.point).toNat + 1) '0' ++ d.digits) 0 = d.coefficient := by
          rw [Nat.ofDigitChars_append, Nat.ofDigitChars_replicate_zero, mul_zero,
            ofDigitChars_digits]
        exact hzeros
      · simp only [Numeral.exponentValue, Numeral.fractionDigits, Option.getD_some,
          List.length_append, List.length_replicate]
        omega

theorem exponentValue_scientificNumeral :
    (style.scientificNumeral sign d).exponentValue = d.point - 1 := by
  simp only [scientificNumeral, Numeral.exponentValue, Nat.ofDigitChars_ten_toDigits]
  rcases style.exponentSign_eq (d.point - 1) with ⟨hnegative, hsign⟩ | ⟨hnonnegative, hsign⟩
  · rw [hsign, if_pos (by decide)]
    omega
  · have hminus : (style.exponentSign (d.point - 1) == some '-') = false := by
      rcases hsign with hsign | hsign <;> rw [hsign] <;> rfl
    rw [if_neg (by simp [hminus])]
    omega

/-- The digits behind the first one. -/
theorem fractionDigits_scientificNumeral :
    (style.scientificNumeral sign d).fractionDigits = d.digits.drop 1 := by
  unfold scientificNumeral Numeral.fractionDigits
  split
  next hone => simp [List.drop_eq_nil_of_le hone.le]
  next => rfl

theorem value_scientificNumeral : (style.scientificNumeral sign d).magnitude.value = d.value := by
  have hpoint : d.point = d.digits.length + d.exponent := rfl
  have hlength : 0 < d.digits.length := Nat.length_toDigits_pos
  congr 1
  refine magnitude_eq d ?_ ?_
  · have hdigits : (style.scientificNumeral sign d).whole ++
        (style.scientificNumeral sign d).fractionDigits = d.digits := by
      rw [fractionDigits_scientificNumeral]
      exact List.take_append_drop ..
    rw [hdigits, ofDigitChars_digits]
  · rw [exponentValue_scientificNumeral, fractionDigits_scientificNumeral, List.length_drop]
    omega

/-- **The numeral of a decimal stands for the decimal.** -/
theorem value_numeral : (style.numeral sign d).magnitude.value = d.value := by
  unfold numeral
  split
  · exact value_positionalNumeral style sign d
  · exact value_scientificNumeral style sign d

end DecimalStyle

/-! ## Numbers of a format -/

namespace Number

/-- The exponent of a finite number does not have all bits set. -/
theorem toNat_unpackExponent_lt {spec : Format} {bits : BitVec spec.numBits}
    (h : ¬UnpackedFloat.unpackExponent bits = -1#_) :
    (UnpackedFloat.unpackExponent bits).toNat + 1 < 2 ^ spec.exponentBits := by
  rw [BitVec.neg_one_eq_allOnes, ← ne_eq, ← BitVec.lt_allOnes_iff, BitVec.lt_def,
    BitVec.toNat_allOnes] at h
  omega

/-- The leading digit that is not stored is the highest one of the mantissa. -/
theorem toNat_one_append {w : ℕ} (mantissa : BitVec w) :
    (1#1 ++ mantissa).toNat = 2 ^ w + mantissa.toNat := by
  have hor := Nat.two_pow_add_eq_or_of_lt mantissa.isLt 1
  rw [mul_one] at hor
  rw [BitVec.toNat_append, hor, BitVec.toNat_one Nat.one_pos, Nat.one_shiftLeft]

/-- The number is unpacked in the one form that a format has for it. -/
theorem normalized_of_unpack {spec : Format} {bits : BitVec spec.numBits} {sign : Sign}
    {mantissa : ℕ} {exponent : ℤ} {hpos : 0 < mantissa} (hspec : 2 ≤ spec.exponentBits)
    (h : UnpackedFloat.unpack spec bits = .finite sign mantissa exponent hpos) :
    Normalized spec mantissa exponent ∧
      exponent + spec.mantissaBits ≤ 2 ^ (spec.exponentBits - 1) := by
  have htwo : (2 : ℤ) ^ 1 ≤ 2 ^ (spec.exponentBits - 1) :=
    pow_le_pow_right₀ one_le_two (Nat.le_sub_of_add_le hspec)
  have hhalf : (2 : ℤ) ^ spec.exponentBits = 2 * 2 ^ (spec.exponentBits - 1) := by
    rw [← pow_succ', Nat.sub_add_cancel spec.he]
  have hbias : (spec.exponentBias : ℤ) = 2 ^ (spec.exponentBits - 1) - 1 := by
    rw [Format.exponentBias, Nat.cast_sub Nat.one_le_two_pow]
    push_cast
    rfl
  have hleast : spec.minExponent = 3 - 2 ^ (spec.exponentBits - 1) - spec.mantissaBits := rfl
  have hbits : spec.mantissaBits = 1 + spec.mantissaBitsWithoutImplicit := rfl
  have htop : 2 ^ spec.mantissaBits = 2 * 2 ^ spec.mantissaBitsWithoutImplicit := by
    rw [hbits, pow_add, pow_one]
  have hmantissa := (UnpackedFloat.unpackMantissa bits).isLt
  unfold UnpackedFloat.unpack at h
  dsimp only at h
  split at h
  · split at h <;> contradiction
  next hones =>
    have hexponent : ((UnpackedFloat.unpackExponent bits).toNat : ℤ) + 1 <
        2 ^ spec.exponentBits := by exact_mod_cast toNat_unpackExponent_lt hones
    split at h
    next hzero =>
      -- a number with the least exponent
      split at h
      · contradiction
      next hne =>
        obtain ⟨rfl, rfl, rfl⟩ := UnpackedFloat.finite.inj h
        have hzero' : (UnpackedFloat.unpackExponent bits).toNat = 0 := by rw [hzero]; rfl
        exact ⟨⟨hpos, by omega, by omega, Or.inr (by omega)⟩, by omega⟩
    next hnonzero =>
      -- a number with all digits
      obtain ⟨rfl, rfl, rfl⟩ := UnpackedFloat.finite.inj h
      have hpositive : 0 < (UnpackedFloat.unpackExponent bits).toNat :=
        Nat.pos_of_ne_zero (fun hzero => hnonzero (BitVec.eq_of_toNat_eq hzero))
      have hfull := toNat_one_append (UnpackedFloat.unpackMantissa bits)
      exact ⟨⟨hpos, by omega, by omega, Or.inl (by omega)⟩, by omega⟩

/-- A number is packed as it was unpacked. -/
theorem ofModel_pack_unpack (x : Float) : Float.ofModel (Float.Model.pack x.toModel.unpack) = x := by
  have hbits : UnpackedFloat.pack .binary64 x.toModel.unpack = x.toModel.toBits.toBitVec :=
    UnpackedFloat.pack_unpack_of_valid x.toModel.valid
  rw [← Float.toBits_inj, ← UInt64.toBitVec_inj]
  exact hbits

theorem ofModel_pack_unpack32 (x : Float32) :
    Float32.ofModel (Float32.Model.pack x.toModel.unpack) = x := by
  have hbits : UnpackedFloat.pack .binary32 x.toModel.unpack = x.toModel.toBits.toBitVec :=
    UnpackedFloat.pack_unpack_of_valid x.toModel.valid
  rw [← Float32.toBits_inj, ← UInt32.toBitVec_inj]
  exact hbits

end Number

/-! ## Reading what is written -/

namespace DecimalStyle

open Symbology.Number (Normalized binary normalized_of_unpack)

variable {style : DecimalStyle} {spec : Format}

/-- The numeral that is the text of a finite number. -/
def numeralOf (style : DecimalStyle) (spec : Format) : UnpackedFloat → Numeral
  | .zero sign => style.positionalNumeral (signChar sign) ⟨0, 0⟩
  | .finite sign mantissa exponent _ =>
    style.numeral (signChar sign)
      (Decimal.Binary.shortest style.tie (binary spec mantissa exponent))
  | _ => ⟨none, [], none, none⟩

/-- The numeral is the text of the number, has the form that JSON demands, and is read as the
number. A style that keeps the fraction of whole numbers writes no whole numeral. -/
structure IsText (style : DecimalStyle) (spec : Format) (u : UnpackedFloat) (n : Numeral) :
    Prop where
  wellFormed : n.WellFormed
  strict : n.strict = true
  chars : n.chars = style.text spec u
  round : n.magnitude.round spec n.signValue = u
  fraction : style.wholeFraction = true → n.isWhole = false

theorem isSign_of_mem_signChar (sign : Sign) : ∀ c ∈ signChar sign, Numeral.isSign c = true := by
  cases sign <;> simp [signChar, Numeral.isSign]

theorem signChar_ne_plus (sign : Sign) : signChar sign ≠ some '+' := by
  cases sign <;> simp [signChar]

theorem signValue_of_signChar {n : Numeral} {sign : Sign} (h : n.sign = signChar sign) :
    n.signValue = sign := by
  cases sign <;> simp [Numeral.signValue, Numeral.negative, h, signChar]

theorem sign_positionalNumeral (sign : Option Char) (d : Decimal) :
    (style.positionalNumeral sign d).sign = sign := by
  unfold positionalNumeral
  split
  · rfl
  · split <;> rfl

theorem sign_numeral (sign : Option Char) (d : Decimal) : (style.numeral sign d).sign = sign := by
  unfold numeral
  split
  · exact sign_positionalNumeral sign d
  · rfl

/-- The plain style writes no exponents. -/
theorem exponent_numeralOf_plain (spec : Format) (u : UnpackedFloat) :
    (plain.numeralOf spec u).exponent = none := by
  have hpositional (sign : Option Char) (d : Decimal) :
      (plain.positionalNumeral sign d).exponent = none := by
    unfold positionalNumeral
    split
    · rfl
    · split <;> rfl
  cases u with
  | zero sign => exact hpositional _ _
  | finite sign mantissa exponent hpos => exact hpositional _ _
  | _ => rfl

theorem isWhole_positionalNumeral (hstyle : style.wholeFraction = true) (sign : Option Char)
    (d : Decimal) : (style.positionalNumeral sign d).isWhole = false := by
  unfold positionalNumeral
  split
  · simp [Numeral.isWhole]
  · split <;> rfl

theorem isWhole_numeral (hstyle : style.wholeFraction = true) (sign : Option Char) (d : Decimal) :
    (style.numeral sign d).isWhole = false := by
  unfold numeral
  split
  · exact isWhole_positionalNumeral hstyle sign d
  · simp [scientificNumeral, Numeral.isWhole]

/-- **The text of a finite number is a numeral**, if the exponents of the format are within reach
of a decimal. -/
theorem isText_numeralOf (style : DecimalStyle) (hspec : 2 ≤ spec.exponentBits)
    (hleast : -1200 ≤ spec.minExponent) (hgreatest : (2 : ℤ) ^ (spec.exponentBits - 1) ≤ 1200)
    {bits : BitVec spec.numBits} (hfinite : (UnpackedFloat.unpack spec bits).isFinite = true) :
    style.IsText spec (UnpackedFloat.unpack spec bits)
      (style.numeralOf spec (UnpackedFloat.unpack spec bits)) := by
  cases hunpack : UnpackedFloat.unpack spec bits with
  | infinity sign | notANumber =>
    rw [hunpack] at hfinite
    contradiction
  | zero sign =>
    let n := style.positionalNumeral (signChar sign) ⟨0, 0⟩
    have hzero : n.magnitude.coefficient = 0 := by
      have hvalue : (n.magnitude.coefficient : ℚ) * 10 ^ n.magnitude.exponent = 0 := by
        have hzero := value_positionalNumeral style (signChar sign) ⟨0, 0⟩
        rwa [Decimal.value, Decimal.value, Nat.cast_zero, zero_mul] at hzero
      have hten : (10 : ℚ) ^ n.magnitude.exponent ≠ 0 := zpow_ne_zero _ (by norm_num)
      exact Nat.cast_eq_zero.mp ((mul_eq_zero.mp hvalue).resolve_right hten)
    refine ⟨wellFormed_positionalNumeral style _ (isSign_of_mem_signChar sign),
      strict_positionalNumeral_zero style (signChar_ne_plus sign), ?_, ?_,
      fun hstyle => isWhole_positionalNumeral hstyle _ _⟩
    · rw [numeralOf, chars_positionalNumeral, ← signed_eq, text]
    · rw [numeralOf, Decimal.round, if_pos (Or.inl hzero),
        signValue_of_signChar (sign_positionalNumeral _ _)]
  | finite sign mantissa exponent hpos =>
    obtain ⟨hnormal, hexponent⟩ := normalized_of_unpack hspec hunpack
    have hcontains := Decimal.Binary.shortest_contains style.tie
      (b := binary spec mantissa exponent) hpos
    refine ⟨wellFormed_numeral style _ (isSign_of_mem_signChar sign),
      strict_numeral style _ (signChar_ne_plus sign)
        (Decimal.coefficient_pos_of_contains hpos hcontains), ?_, ?_,
      fun hstyle => isWhole_numeral hstyle _ _⟩
    · rw [numeralOf, chars_numeral, ← signed_eq, text]
      rfl
    · rw [numeralOf, signValue_of_signChar (sign_numeral _ _)]
      refine Decimal.round_eq sign hnormal (hleast.trans hnormal.least)
        (hexponent.trans hgreatest) ?_
      rw [value_numeral]
      exact hcontains

theorem isText_ofFloat (style : DecimalStyle) {x : Float} (hfinite : x.isFinite = true) :
    style.IsText .binary64 x.toModel.unpack (style.numeralOf .binary64 x.toModel.unpack) :=
  isText_numeralOf style (by decide) (by decide) (by decide) hfinite

theorem isText_ofFloat32 (style : DecimalStyle) {x : Float32} (hfinite : x.isFinite = true) :
    style.IsText .binary32 x.toModel.unpack (style.numeralOf .binary32 x.toModel.unpack) :=
  isText_numeralOf style (by decide) (by decide) (by decide) hfinite

theorem IsText.toFloat_eq {x : Float} {n : Numeral}
    (h : style.IsText .binary64 x.toModel.unpack n) : n.toFloat = x := by
  rw [Numeral.toFloat, Decimal.toFloat, h.round]
  exact Number.ofModel_pack_unpack x

theorem IsText.toFloat32_eq {x : Float32} {n : Numeral}
    (h : style.IsText .binary32 x.toModel.unpack n) : n.toFloat32 = x := by
  rw [Numeral.toFloat32, Decimal.toFloat32, h.round]
  exact Number.ofModel_pack_unpack32 x

end DecimalStyle

end Symbology
