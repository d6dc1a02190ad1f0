import Mathlib
import Symbology.Number.Numeral

set_option autoImplicit false

/-! # Numerals are cut as they are put together

The text of a numeral whose parts are as they should be (`Numeral.WellFormed`) is cut into these
parts again (`Numeral.read?_chars`). It has the form that JSON demands when it has the digits that
it needs (`Numeral.strict_of`). -/

namespace Symbology.Numeral

/-- The parts hold the characters that they may hold. -/
structure WellFormed (n : Numeral) : Prop where
  sign : ∀ c ∈ n.sign, isSign c = true
  whole : ∀ c ∈ n.whole, c.isDigit = true
  fraction : ∀ digits ∈ n.fraction, ∀ c ∈ digits, c.isDigit = true
  mark : ∀ exponent ∈ n.exponent, isExponentMark exponent.1 = true
  exponentSign : ∀ exponent ∈ n.exponent, ∀ c ∈ exponent.2.1, isSign c = true
  exponent : ∀ exponent ∈ n.exponent, ∀ c ∈ exponent.2.2, c.isDigit = true

/-! ## The characters of a numeral -/

theorem isSign_iff {c : Char} : isSign c = true ↔ c = '+' ∨ c = '-' := by
  simp [isSign]

theorem isExponentMark_iff {c : Char} : isExponentMark c = true ↔ c = 'e' ∨ c = 'E' := by
  simp [isExponentMark]

theorem isDigit_of_mem_toDigits {n : ℕ} {c : Char} (h : c ∈ Nat.toDigits 10 n) :
    c.isDigit = true :=
  Nat.isDigit_of_mem_toDigits (by norm_num) (by norm_num) h

theorem not_isDigit_of_isSign {c : Char} (h : isSign c = true) : c.isDigit = false := by
  rcases isSign_iff.mp h with rfl | rfl <;> rfl

theorem not_isDigit_of_isExponentMark {c : Char} (h : isExponentMark c = true) :
    c.isDigit = false ∧ isSign c = false ∧ c ≠ '.' := by
  rcases isExponentMark_iff.mp h with rfl | rfl <;> decide

theorem not_isSign_of_isDigit {c : Char} (h : c.isDigit = true) : isSign c = false := by
  by_contra hsign
  rw [Bool.not_eq_false] at hsign
  rw [not_isDigit_of_isSign hsign] at h
  contradiction

/-! ## Taking parts off the front -/

/-- Digits end where something else begins. -/
theorem span_digits {digits rest : List Char} (hdigits : ∀ c ∈ digits, c.isDigit = true)
    (hrest : ∀ c ∈ rest.head?, c.isDigit = false) :
    (digits ++ rest).takeWhile Char.isDigit = digits ∧
      (digits ++ rest).dropWhile Char.isDigit = rest := by
  rw [List.takeWhile_append_of_pos hdigits, List.dropWhile_append_of_pos hdigits]
  cases rest with
  | nil => simp
  | cons c rest =>
    have hc : c.isDigit = false := hrest c rfl
    simp [hc]

theorem takeSign_append {sign : Option Char} {rest : List Char}
    (hsign : ∀ c ∈ sign, isSign c = true) (hrest : ∀ c ∈ rest.head?, isSign c = false) :
    takeSign (sign.toList ++ rest) = (sign, rest) := by
  cases sign with
  | some c => simp [takeSign, hsign c rfl]
  | none =>
    cases rest with
    | nil => rfl
    | cons c rest => simp [takeSign, hrest c rfl]

/-- The text of the fraction. -/
def fractionChars : Option (List Char) → List Char
  | none => []
  | some digits => '.' :: digits

/-- The text of the exponent. -/
def exponentChars : Option (Char × Option Char × List Char) → List Char
  | none => []
  | some (mark, sign, digits) => mark :: (sign.toList ++ digits)

theorem chars_eq (n : Numeral) :
    n.chars = n.sign.toList ++ (n.whole ++ (fractionChars n.fraction ++ exponentChars n.exponent)) :=
  rfl

theorem takeFraction_append {fraction : Option (List Char)} {rest : List Char}
    (hfraction : ∀ digits ∈ fraction, ∀ c ∈ digits, c.isDigit = true)
    (hrest : ∀ c ∈ rest.head?, c.isDigit = false ∧ c ≠ '.') :
    takeFraction (fractionChars fraction ++ rest) = (fraction, rest) := by
  cases fraction with
  | none =>
    cases rest with
    | nil => rfl
    | cons c rest => simp [fractionChars, takeFraction, (hrest c rfl).2]
  | some digits =>
    obtain ⟨htake, hdrop⟩ := span_digits (hfraction digits rfl) (fun c hc => (hrest c hc).1)
    simp [fractionChars, takeFraction, htake, hdrop]

theorem takeExponent_chars {exponent : Option (Char × Option Char × List Char)}
    (hmark : ∀ e ∈ exponent, isExponentMark e.1 = true)
    (hsign : ∀ e ∈ exponent, ∀ c ∈ e.2.1, isSign c = true)
    (hdigits : ∀ e ∈ exponent, ∀ c ∈ e.2.2, c.isDigit = true) :
    takeExponent (exponentChars exponent) = (exponent, []) := by
  cases exponent with
  | none => rfl
  | some e =>
    obtain ⟨mark, sign, digits⟩ := e
    have hhead : ∀ c ∈ digits.head?, isSign c = false := fun c hc =>
      not_isSign_of_isDigit (hdigits _ rfl c (List.mem_of_mem_head? hc))
    have hsplit := takeSign_append (hsign _ rfl) hhead
    obtain ⟨htake, hdrop⟩ := @span_digits digits [] (hdigits _ rfl) (by simp)
    rw [List.append_nil] at htake hdrop
    simp [exponentChars, takeExponent, hmark _ rfl, hsplit, htake, hdrop]

/-- The text of the exponent begins with its mark. -/
theorem head_exponentChars {n : Numeral} (h : n.WellFormed) {c : Char}
    (hc : c ∈ (exponentChars n.exponent).head?) :
    c.isDigit = false ∧ isSign c = false ∧ c ≠ '.' := by
  cases hexponent : n.exponent with
  | none => simp [hexponent, exponentChars] at hc
  | some e =>
    rw [hexponent] at hc
    obtain rfl : e.1 = c := by simpa [exponentChars] using hc
    exact not_isDigit_of_isExponentMark (h.mark e (by rw [hexponent]; rfl))

/-- The text of the fraction and the exponent begins with neither a digit nor a sign. -/
theorem head_fractionChars {n : Numeral} (h : n.WellFormed) {c : Char}
    (hc : c ∈ (fractionChars n.fraction ++ exponentChars n.exponent).head?) :
    c.isDigit = false ∧ isSign c = false := by
  cases hfraction : n.fraction with
  | none =>
    rw [hfraction] at hc
    obtain ⟨hdigit, hsign, _⟩ := head_exponentChars h hc
    exact ⟨hdigit, hsign⟩
  | some digits =>
    rw [hfraction] at hc
    obtain rfl : '.' = c := by simpa [fractionChars] using hc
    exact ⟨rfl, rfl⟩

/-- Behind its sign a numeral does not begin with another one. -/
theorem head_unsignedChars {n : Numeral} (h : n.WellFormed) {c : Char}
    (hc : c ∈ (n.whole ++ (fractionChars n.fraction ++ exponentChars n.exponent)).head?) :
    isSign c = false := by
  cases hdigits : n.whole with
  | nil =>
    rw [hdigits, List.nil_append] at hc
    exact (head_fractionChars h hc).2
  | cons d rest =>
    rw [hdigits] at hc
    obtain rfl : d = c := by simpa using hc
    exact not_isSign_of_isDigit (h.whole d (by rw [hdigits]; exact List.mem_cons_self))

/-- **A numeral is read from its text.** -/
theorem read?_chars {n : Numeral} (h : n.WellFormed) : read? n.chars = some n := by
  have hsign := takeSign_append h.sign (fun c hc => head_unsignedChars h hc)
  obtain ⟨htake, hdrop⟩ := span_digits h.whole (fun c hc => (head_fractionChars h hc).1)
  have hfraction := takeFraction_append h.fraction (fun c hc =>
    have hhead := head_exponentChars h hc
    ⟨hhead.1, hhead.2.2⟩)
  have hexponent := takeExponent_chars h.mark h.exponentSign h.exponent
  unfold read?
  rw [chars_eq, hsign]
  simp only [htake, hdrop, hfraction, hexponent]
  rfl

/-! ## Characters that may stand in a numeral -/

theorem isNumeric_of_isDigit {c : Char} (h : c.isDigit = true) : isNumeric c = true := by
  simp [isNumeric, h]

/-- The text of a numeral holds digits, signs, points and exponent marks only. -/
theorem isNumeric_of_mem_chars {n : Numeral} (h : n.WellFormed) {c : Char} (hc : c ∈ n.chars) :
    isNumeric c = true := by
  rw [chars_eq] at hc
  rcases List.mem_append.mp hc with hsign | hc
  · have := h.sign c (by simpa using hsign)
    simp [isNumeric, this]
  rcases List.mem_append.mp hc with hwhole | hc
  · exact isNumeric_of_isDigit (h.whole c hwhole)
  rcases List.mem_append.mp hc with hfraction | hexponent
  · cases hn : n.fraction with
    | none => simp [hn, fractionChars] at hfraction
    | some digits =>
      rw [hn, fractionChars] at hfraction
      rcases List.mem_cons.mp hfraction with rfl | hdigit
      · rfl
      · exact isNumeric_of_isDigit (h.fraction digits hn c hdigit)
  · cases hn : n.exponent with
    | none => simp [hn, exponentChars] at hexponent
    | some e =>
      obtain ⟨mark, sign, digits⟩ := e
      rw [hn, exponentChars] at hexponent
      rcases List.mem_cons.mp hexponent with rfl | hrest
      · have := h.mark _ hn
        simp [isNumeric, this]
      rcases List.mem_append.mp hrest with hsign | hdigit
      · have := h.exponentSign _ hn c (by simpa using hsign)
        simp [isNumeric, this]
      · exact isNumeric_of_isDigit (h.exponent _ hn c hdigit)

/-! ## The grammar of JSON -/

/-- The digits of a positive number do not begin with a zero. -/
theorem head_toDigits {n : ℕ} (hn : 0 < n) : (Nat.toDigits 10 n).head? ≠ some '0' := by
  induction n using Nat.strong_induction_on with
  | _ n ih =>
    by_cases hlt : n < 10
    · rw [Nat.toDigits_of_lt_base hlt]
      interval_cases n <;> decide
    · rw [Nat.toDigits_of_base_le (by norm_num) (not_lt.mp hlt),
        List.head?_append_of_ne_nil _ Nat.toDigits_ne_nil]
      exact ih (n / 10) (by omega) (by omega)

/-- A numeral without a plus sign is strict if its parts have the digits they need. -/
theorem strict_of {n : Numeral} (hsign : n.sign ≠ some '+') (hwhole : n.whole ≠ [])
    (hzero : n.whole.head? ≠ some '0' ∨ n.whole.length = 1) (hfraction : n.fraction ≠ some [])
    (hexponent : n.exponentComplete = true) : n.strict = true := by
  simp [strict, hsign, hwhole, hzero, hfraction, hexponent]

theorem whole_ne_nil_of_strict {n : Numeral} (h : n.strict = true) : n.whole ≠ [] := by
  simp only [strict, Bool.and_eq_true, Bool.not_eq_true', List.isEmpty_eq_false_iff] at h
  exact h.1.1.1.2

/-- What is a numeral in JSON is a numeral of the free grammar. -/
theorem free_of_strict {n : Numeral} (h : n.strict = true) : n.free = true := by
  have hwhole := whole_ne_nil_of_strict h
  simp only [strict, Bool.and_eq_true] at h
  simp [free, hwhole, h.2]

end Symbology.Numeral
