import Symbology.Proofs.Number.Numeral

set_option autoImplicit false

/-! # The grammar of decimal numerals

A decimal numeral is `S? (D+ ('.' D*)? | '.' D+) (('e' | 'E') S? D+)?`, where `S` is a sign and `D`
a digit (`IsDecimal`). These are the texts that the free reader takes (`isSome_readFree?_iff`). In
such a text a sign stands in front or behind an exponent mark, and there is one point at most,
before the exponent and next to a digit. -/

namespace Symbology.Numeral

/-! ## The grammar -/

/-- `D+`. -/
def IsDigits (text : List Char) : Prop :=
  text ≠ [] ∧ ∀ c ∈ text, c.isDigit = true

/-- `S?`. -/
inductive IsOptionalSign : List Char → Prop
  | absent : IsOptionalSign []
  | sign {c : Char} (sign : isSign c = true) : IsOptionalSign [c]

/-- `D+ ('.' D*)? | '.' D+`. -/
inductive IsMantissa : List Char → Prop
  | whole {digits : List Char} (digits_ok : IsDigits digits) : IsMantissa digits
  | point {digits fraction : List Char} (digits_ok : IsDigits digits)
      (fraction_ok : ∀ c ∈ fraction, c.isDigit = true) : IsMantissa (digits ++ '.' :: fraction)
  | bare {fraction : List Char} (fraction_ok : IsDigits fraction) : IsMantissa ('.' :: fraction)

/-- `(('e' | 'E') S? D+)?`. -/
inductive IsOptionalExponent : List Char → Prop
  | absent : IsOptionalExponent []
  | exponent {mark : Char} {sign digits : List Char} (mark_ok : isExponentMark mark = true)
      (sign_ok : IsOptionalSign sign) (digits_ok : IsDigits digits) :
      IsOptionalExponent (mark :: (sign ++ digits))

/-- The text is a decimal numeral: an optional sign, digits with an optional point among them, and
an optional exponent. -/
def IsDecimal (text : List Char) : Prop :=
  ∃ sign mantissa exponent, IsOptionalSign sign ∧ IsMantissa mantissa ∧
    IsOptionalExponent exponent ∧ text = sign ++ (mantissa ++ exponent)

/-! ## The parts of a decimal numeral -/

theorem isOptionalSign_iff {text : List Char} :
    IsOptionalSign text ↔ ∃ sign : Option Char, (∀ c ∈ sign, isSign c = true) ∧
      sign.toList = text := by
  constructor
  · rintro (_ | hsign)
    · exact ⟨none, by simp, rfl⟩
    · exact ⟨some _, by simpa using hsign, rfl⟩
  · rintro ⟨sign, hsign, rfl⟩
    cases sign with
    | none => exact .absent
    | some c => exact .sign (hsign c rfl)

/-- A mantissa has digits before the point or behind it. -/
theorem isMantissa_iff {text : List Char} :
    IsMantissa text ↔ ∃ whole fraction, (∀ c ∈ whole, c.isDigit = true) ∧
      (∀ digits ∈ fraction, ∀ c ∈ digits, c.isDigit = true) ∧
      (whole ≠ [] ∨ fraction.getD [] ≠ []) ∧ whole ++ fractionChars fraction = text := by
  constructor
  · rintro (⟨hne, hdigits⟩ | ⟨⟨hne, hdigits⟩, hfraction⟩ | ⟨hne, hfraction⟩)
    · exact ⟨text, none, hdigits, by simp, Or.inl hne, List.append_nil text⟩
    · exact ⟨_, some _, hdigits, by simpa using hfraction, Or.inl hne, rfl⟩
    · exact ⟨[], some _, by simp, by simpa using hfraction, Or.inr hne, rfl⟩
  · rintro ⟨whole, fraction, hwhole, hfraction, hne, rfl⟩
    cases fraction with
    | none =>
      have hne : whole ≠ [] := hne.resolve_right (fun h => h rfl)
      rw [fractionChars, List.append_nil]
      exact .whole ⟨hne, hwhole⟩
    | some digits =>
      by_cases hempty : whole = []
      · subst hempty
        exact .bare ⟨hne.resolve_left (fun h => h rfl), hfraction digits rfl⟩
      · exact .point ⟨hempty, hwhole⟩ (hfraction digits rfl)

theorem isOptionalExponent_iff {text : List Char} :
    IsOptionalExponent text ↔ ∃ exponent : Option (Char × Option Char × List Char),
      (∀ e ∈ exponent, isExponentMark e.1 = true ∧ (∀ c ∈ e.2.1, isSign c = true) ∧
        IsDigits e.2.2) ∧ exponentChars exponent = text := by
  constructor
  · rintro (_ | ⟨hmark, hsign, hdigits⟩)
    · exact ⟨none, by simp, rfl⟩
    · obtain ⟨sign, hsigns, rfl⟩ := isOptionalSign_iff.mp hsign
      exact ⟨some (_, sign, _), by simpa using ⟨hmark, hsigns, hdigits⟩, rfl⟩
  · rintro ⟨exponent, hparts, rfl⟩
    cases exponent with
    | none => exact .absent
    | some e =>
      obtain ⟨hmark, hsign, hdigits⟩ := hparts e rfl
      exact .exponent hmark (isOptionalSign_iff.mpr ⟨e.2.1, hsign, rfl⟩) hdigits

theorem exponentComplete_iff {n : Numeral} :
    n.exponentComplete = true ↔ ∀ e ∈ n.exponent, e.2.2 ≠ [] := by
  unfold exponentComplete
  cases n.exponent <;> simp

theorem free_iff {n : Numeral} :
    n.free = true ↔
      (n.whole ≠ [] ∨ n.fraction.getD [] ≠ []) ∧ ∀ e ∈ n.exponent, e.2.2 ≠ [] := by
  simp only [free, fractionDigits, Bool.and_eq_true, Bool.or_eq_true, Bool.not_eq_true',
    List.isEmpty_eq_false_iff, exponentComplete_iff, ne_eq]

/-- **A decimal numeral is the text of a free numeral**, put together from parts that are as they
should be. -/
theorem isDecimal_iff {text : List Char} :
    IsDecimal text ↔ ∃ n : Numeral, n.WellFormed ∧ n.free = true ∧ n.chars = text := by
  simp only [free_iff]
  constructor
  · rintro ⟨_, _, _, hsign, hmantissa, hexponent, rfl⟩
    obtain ⟨sign, hsigns, rfl⟩ := isOptionalSign_iff.mp hsign
    obtain ⟨whole, fraction, hwhole, hfraction, hne, rfl⟩ := isMantissa_iff.mp hmantissa
    obtain ⟨exponent, hparts, rfl⟩ := isOptionalExponent_iff.mp hexponent
    refine ⟨⟨sign, whole, fraction, exponent⟩,
      ⟨hsigns, hwhole, hfraction, fun e he => (hparts e he).1, fun e he => (hparts e he).2.1,
        fun e he => (hparts e he).2.2.2⟩,
      ⟨hne, fun e he => (hparts e he).2.2.1⟩, ?_⟩
    rw [chars_eq, List.append_assoc]
  · rintro ⟨n, hn, ⟨hne, hcomplete⟩, rfl⟩
    refine ⟨n.sign.toList, n.whole ++ fractionChars n.fraction, exponentChars n.exponent,
      isOptionalSign_iff.mpr ⟨n.sign, hn.sign, rfl⟩,
      isMantissa_iff.mpr ⟨n.whole, n.fraction, hn.whole, hn.fraction, hne, rfl⟩,
      isOptionalExponent_iff.mpr ⟨n.exponent, fun e he => ?_, rfl⟩, ?_⟩
    · exact ⟨hn.mark e he, hn.exponentSign e he, hcomplete e he, hn.exponent e he⟩
    · rw [chars_eq, List.append_assoc]

/-! ## What the reader cuts off -/

theorem takeSign_spec {text rest : List Char} {sign : Option Char}
    (h : takeSign text = (sign, rest)) :
    (∀ c ∈ sign, isSign c = true) ∧ sign.toList ++ rest = text := by
  cases text with
  | nil =>
    obtain ⟨rfl, rfl⟩ := Prod.mk.inj h
    simp
  | cons c text =>
    rw [takeSign] at h
    split at h
    next hc =>
      obtain ⟨rfl, rfl⟩ := Prod.mk.inj h
      simpa using hc
    next =>
      obtain ⟨rfl, rfl⟩ := Prod.mk.inj h
      simp

theorem takeFraction_spec {text rest : List Char} {fraction : Option (List Char)}
    (h : takeFraction text = (fraction, rest)) :
    (∀ digits ∈ fraction, ∀ c ∈ digits, c.isDigit = true) ∧
      fractionChars fraction ++ rest = text := by
  cases text with
  | nil =>
    obtain ⟨rfl, rfl⟩ := Prod.mk.inj h
    simp [fractionChars]
  | cons c text =>
    rw [takeFraction] at h
    split at h
    next hc =>
      obtain rfl := beq_iff_eq.mp hc
      obtain ⟨rfl, rfl⟩ := Prod.mk.inj h
      refine ⟨?_, by simp [fractionChars, List.takeWhile_append_dropWhile]⟩
      rintro digits ⟨⟩ c hc
      exact List.mem_takeWhile_imp hc
    next =>
      obtain ⟨rfl, rfl⟩ := Prod.mk.inj h
      simp [fractionChars]

theorem takeExponent_spec {text rest : List Char}
    {exponent : Option (Char × Option Char × List Char)}
    (h : takeExponent text = (exponent, rest)) :
    (∀ e ∈ exponent, isExponentMark e.1 = true ∧ (∀ c ∈ e.2.1, isSign c = true) ∧
      ∀ c ∈ e.2.2, c.isDigit = true) ∧ exponentChars exponent ++ rest = text := by
  cases text with
  | nil =>
    obtain ⟨rfl, rfl⟩ := Prod.mk.inj h
    simp [exponentChars]
  | cons c text =>
    rw [takeExponent] at h
    split at h
    next hc =>
      rcases hsplit : takeSign text with ⟨sign, behind⟩
      rw [hsplit] at h
      obtain ⟨rfl, rfl⟩ := Prod.mk.inj h
      obtain ⟨hsign, rfl⟩ := takeSign_spec hsplit
      refine ⟨?_, by simp [exponentChars, List.takeWhile_append_dropWhile]⟩
      rintro e ⟨⟩
      exact ⟨hc, hsign, fun c hc => List.mem_takeWhile_imp hc⟩
    next =>
      obtain ⟨rfl, rfl⟩ := Prod.mk.inj h
      simp [exponentChars]

/-- **Reading a text cuts it into the parts of a numeral**, and nothing is left over. -/
theorem read?_eq_some_iff {text : List Char} {n : Numeral} :
    read? text = some n ↔ n.WellFormed ∧ n.chars = text := by
  constructor
  · intro h
    unfold read? at h
    rcases hsign : takeSign text with ⟨sign, unsigned⟩
    rw [hsign] at h
    dsimp only at h
    rcases hfraction : takeFraction (unsigned.dropWhile Char.isDigit) with ⟨fraction, behind⟩
    rw [hfraction] at h
    dsimp only at h
    rcases hexponent : takeExponent behind with ⟨exponent, rest⟩
    rw [hexponent] at h
    dsimp only at h
    split at h
    next hrest =>
      obtain rfl := Option.some.inj h
      obtain rfl := List.isEmpty_iff.mp hrest
      obtain ⟨hsigns, rfl⟩ := takeSign_spec hsign
      obtain ⟨hdigits, hwhole⟩ := takeFraction_spec hfraction
      obtain ⟨hparts, rfl⟩ := takeExponent_spec hexponent
      refine ⟨⟨hsigns, fun c hc => List.mem_takeWhile_imp hc, hdigits,
        fun e he => (hparts e he).1, fun e he => (hparts e he).2.1,
        fun e he => (hparts e he).2.2⟩, ?_⟩
      rw [List.append_nil] at hwhole
      rw [chars_eq, hwhole, List.takeWhile_append_dropWhile]
    next => contradiction
  · rintro ⟨hn, rfl⟩
    exact read?_chars hn

/-- **The free reader takes the decimal numerals.** -/
theorem readFree?_eq_some_iff {text : List Char} {n : Numeral} :
    readFree? text = some n ↔ n.WellFormed ∧ n.free = true ∧ n.chars = text := by
  rw [readFree?, Option.filter_eq_some_iff, read?_eq_some_iff]
  tauto

theorem isSome_readFree?_iff {text : List Char} :
    (readFree? text).isSome = true ↔ IsDecimal text := by
  simp only [Option.isSome_iff_exists, readFree?_eq_some_iff, isDecimal_iff]

/-! ## Where signs stand -/

/-- There is a sign behind another character than an exponent mark. -/
def HasStraySign (text : List Char) : Prop :=
  ∃ before sign, [before, sign] <:+: text ∧ isSign sign = true ∧ isExponentMark before = false

/-- The second character is no sign, or it may be one since the first is an exponent mark. -/
def MayPrecede (before c : Char) : Prop :=
  isSign c = true → isExponentMark before = true

theorem mayPrecede_of_not_isSign {c : Char} (h : isSign c = false) (before : Char) :
    MayPrecede before c :=
  fun hsign => absurd (h.symm.trans hsign) (by decide)

theorem isChain_of_not_isSign {text : List Char} (h : ∀ c ∈ text, isSign c = false) :
    text.IsChain MayPrecede :=
  (List.pairwise_of_forall_mem_list (fun before _ c hc =>
    mayPrecede_of_not_isSign (h c hc) before)).isChain

theorem not_isSign_of_mem_fractionChars {n : Numeral} (h : n.WellFormed) {c : Char}
    (hc : c ∈ fractionChars n.fraction) : isSign c = false := by
  cases hfraction : n.fraction with
  | none => simp [hfraction, fractionChars] at hc
  | some digits =>
    rw [hfraction] at hc
    rcases List.mem_cons.mp hc with rfl | hdigit
    · rfl
    · exact not_isSign_of_isDigit (h.fraction digits hfraction c hdigit)

/-- In an exponent only the mark may have a sign behind it. -/
theorem isChain_exponentChars {n : Numeral} (h : n.WellFormed) :
    (exponentChars n.exponent).IsChain MayPrecede := by
  cases hexponent : n.exponent with
  | none => exact .nil
  | some e =>
    obtain ⟨mark, sign, digits⟩ := e
    have hdigits : ∀ c ∈ digits, isSign c = false := fun c hc =>
      not_isSign_of_isDigit (h.exponent _ hexponent c hc)
    refine List.isChain_cons.mpr ⟨fun _ _ _ => h.mark _ hexponent, ?_⟩
    cases sign with
    | none => exact isChain_of_not_isSign hdigits
    | some c =>
      refine List.isChain_cons.mpr ⟨fun d hd => ?_, isChain_of_not_isSign hdigits⟩
      exact mayPrecede_of_not_isSign (hdigits d (List.mem_of_mem_head? hd)) c

/-- **In a numeral a sign stands in front or behind an exponent mark.** -/
theorem not_hasStraySign {n : Numeral} (h : n.WellFormed) : ¬HasStraySign n.chars := by
  have hmantissa : ∀ c ∈ n.whole ++ fractionChars n.fraction, isSign c = false := by
    intro c hc
    rcases List.mem_append.mp hc with hwhole | hfraction
    · exact not_isSign_of_isDigit (h.whole c hwhole)
    · exact not_isSign_of_mem_fractionChars h hfraction
  have hunsigned : (n.whole ++ (fractionChars n.fraction ++ exponentChars n.exponent)).IsChain
      MayPrecede := by
    rw [← List.append_assoc, List.isChain_append]
    exact ⟨isChain_of_not_isSign hmantissa, isChain_exponentChars h, fun before _ c hc =>
      mayPrecede_of_not_isSign (head_exponentChars h hc).2.1 before⟩
  have hchain : n.chars.IsChain MayPrecede := by
    rw [chars_eq, List.isChain_append]
    refine ⟨?_, hunsigned, fun before _ c hc =>
      mayPrecede_of_not_isSign (head_unsignedChars h hc) before⟩
    cases n.sign <;> simp
  rintro ⟨before, sign, hinfix, hsign, hbefore⟩
  have hmay : MayPrecede before sign := by simpa using hchain.infix hinfix
  exact absurd (hbefore.symm.trans (hmay hsign)) (by decide)

/-! ## Where points stand -/

/-- There is a point behind another one or behind an exponent mark, or one without a digit next to
it. -/
def HasStrayPoint (text : List Char) : Prop :=
  ∃ before behind, text = before ++ '.' :: behind ∧
    ((∃ c ∈ before, c = '.' ∨ isExponentMark c = true) ∨
      (∀ c ∈ before.getLast?, c.isDigit = false) ∧ ∀ c ∈ behind.head?, c.isDigit = false)

theorem ne_point_of_isDigit {c : Char} (h : c.isDigit = true) :
    c ≠ '.' ∧ isExponentMark c = false := by
  constructor
  · rintro rfl
    contradiction
  · by_contra hmark
    rw [Bool.not_eq_false] at hmark
    exact absurd (h.symm.trans (not_isDigit_of_isExponentMark hmark).1) (by decide)

theorem ne_point_of_isSign {c : Char} (h : isSign c = true) :
    c ≠ '.' ∧ isExponentMark c = false := by
  rcases isSign_iff.mp h with rfl | rfl <;> decide

theorem point_not_mem_exponentChars {n : Numeral} (h : n.WellFormed) :
    '.' ∉ exponentChars n.exponent := by
  cases hexponent : n.exponent with
  | none => simp [exponentChars]
  | some e =>
    obtain ⟨mark, sign, digits⟩ := e
    have hmark := (not_isDigit_of_isExponentMark (h.mark _ hexponent)).2.2
    have hsign : '.' ∉ sign.toList := fun hmem =>
      absurd (h.exponentSign _ hexponent '.' (by simpa using hmem)) (by decide)
    have hdigits : '.' ∉ digits := fun hmem =>
      absurd (h.exponent _ hexponent '.' hmem) (by decide)
    simp [exponentChars, hmark.symm, hsign, hdigits]

/-- Neither the sign nor the digits before the point are points or exponent marks. -/
theorem ne_point_of_mem_front {n : Numeral} (h : n.WellFormed) {c : Char}
    (hc : c ∈ n.sign.toList ++ n.whole) : c ≠ '.' ∧ isExponentMark c = false := by
  rcases List.mem_append.mp hc with hsign | hwhole
  · exact ne_point_of_isSign (h.sign c (by simpa using hsign))
  · exact ne_point_of_isDigit (h.whole c hwhole)

/-- A numeral with a digit before or after its point has one next to it. -/
theorem exists_digit_beside_point {n : Numeral} (h : n.WellFormed) (hfree : n.free = true)
    {digits : List Char} (hfraction : n.fraction = some digits) :
    (∃ c ∈ n.whole.getLast?, c.isDigit = true) ∨ ∃ c ∈ digits.head?, c.isDigit = true := by
  rcases (free_iff.mp hfree).1 with hwhole | hdigits
  · exact Or.inl ⟨n.whole.getLast hwhole, List.getLast?_eq_some_getLast hwhole,
      h.whole _ (List.getLast_mem hwhole)⟩
  · rw [hfraction, Option.getD_some] at hdigits
    obtain ⟨c, rest, rfl⟩ := List.exists_cons_of_ne_nil hdigits
    exact Or.inr ⟨c, rfl, h.fraction _ hfraction c List.mem_cons_self⟩

/-- **In a numeral with a digit before or after the point there is one point at most**, before the
exponent and next to a digit. -/
theorem not_hasStrayPoint {n : Numeral} (h : n.WellFormed) (hfree : n.free = true) :
    ¬HasStrayPoint n.chars := by
  rintro ⟨before, behind, htext, hstray⟩
  have hfrontPoint : '.' ∉ n.sign.toList ++ n.whole := fun hmem =>
    (ne_point_of_mem_front h hmem).1 rfl
  rw [chars_eq, ← List.append_assoc] at htext
  cases hfraction : n.fraction with
  | none =>
    rw [hfraction, fractionChars, List.nil_append] at htext
    have hmem : '.' ∈ n.sign.toList ++ n.whole ++ exponentChars n.exponent := by simp [htext]
    rcases List.mem_append.mp hmem with hmem | hmem
    · exact hfrontPoint hmem
    · exact point_not_mem_exponentChars h hmem
  | some digits =>
    have hbehindPoint : '.' ∉ digits ++ exponentChars n.exponent := by
      intro hmem
      rcases List.mem_append.mp hmem with hmem | hmem
      · exact absurd (h.fraction digits hfraction '.' hmem) (by decide)
      · exact point_not_mem_exponentChars h hmem
    rw [hfraction] at htext
    -- so the point is the one between the digits
    obtain ⟨rfl, -, rfl⟩ :=
      (List.append_cons_inj_of_notMem hfrontPoint hbehindPoint).mp htext
    rcases hstray with ⟨c, hc, hpoint | hmark⟩ | ⟨hbefore, hbehind⟩
    · exact (ne_point_of_mem_front h hc).1 hpoint
    · exact absurd ((ne_point_of_mem_front h hc).2.symm.trans hmark) (by decide)
    · rcases exists_digit_beside_point h hfree hfraction with ⟨c, hc, hdigit⟩ | ⟨c, hc, hdigit⟩
      · have hlast : (n.sign.toList ++ n.whole).getLast? = some c := by
          simp [List.getLast?_append, Option.mem_def.mp hc]
        exact absurd ((hbefore c hlast).symm.trans hdigit) (by decide)
      · have hhead : (digits ++ exponentChars n.exponent).head? = some c := by
          simp [List.head?_append, Option.mem_def.mp hc]
        exact absurd ((hbehind c hhead).symm.trans hdigit) (by decide)

end Symbology.Numeral
