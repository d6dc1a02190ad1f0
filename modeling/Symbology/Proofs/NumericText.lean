import Symbology.Expr.Outcome
import Symbology.Proofs.Number.Grammar
import Symbology.Proofs.Text

set_option autoImplicit false

/-! # Which texts are numbers

A text is converted to a number when it is blank or a decimal numeral with blanks around it
(`numberOfText?_spec`). What a number is spelled as includes the words `inf`, `infinity` and `nan`
(`Number.double?`); a look at the characters in front of the reader keeps them out, and no
numeral. -/

namespace Symbology

open Numeral (IsDecimal HasStraySign HasStrayPoint isSign isNumeric)

/-- The text is a word for a number, in any case and behind any signs. -/
def Number.IsWord (text : List Char) : Prop :=
  ∃ signs word, text = signs ++ word ∧ (∀ c ∈ signs, isSign c = true) ∧
    word.map Char.toLower ∈ ["inf".toList, "infinity".toList, "nan".toList]

namespace Value

/-! ## The look at the characters -/

theorem looksNumeric_iff {text : List Char} :
    looksNumeric text = true ↔ (∀ c ∈ text.dropWhile isSign, isNumeric c = true) ∧
      ∃ c ∈ (text.dropWhile isSign).head?, (c.isDigit || c == '.') = true := by
  rw [looksNumeric, Bool.and_eq_true, List.all_eq_true]
  refine and_congr_right (fun _ => ?_)
  cases (text.dropWhile isSign).head? <;> simp

/-- A decimal numeral has the looks of one. -/
theorem looksNumeric_of_isDecimal {text : List Char} (h : IsDecimal text) :
    looksNumeric text = true := by
  obtain ⟨n, hn, hfree, rfl⟩ := Numeral.isDecimal_iff.mp h
  have hdrop : n.chars.dropWhile isSign =
      n.whole ++ (Numeral.fractionChars n.fraction ++ Numeral.exponentChars n.exponent) := by
    rw [Numeral.chars_eq, List.dropWhile_append_of_pos (by simpa using hn.sign)]
    have hhead := fun c hc => Numeral.head_unsignedChars (c := c) hn hc
    generalize n.whole ++ (_ ++ _) = unsigned at hhead ⊢
    cases unsigned with
    | nil => rfl
    | cons c rest => simp [hhead c rfl]
  refine looksNumeric_iff.mpr ⟨fun c hc => ?_, ?_⟩
  · exact Numeral.isNumeric_of_mem_chars hn ((List.dropWhile_sublist isSign).subset hc)
  · rw [hdrop]
    cases hwhole : n.whole with
    | cons c rest =>
      exact ⟨c, rfl, by simp [hn.whole c (by rw [hwhole]; exact List.mem_cons_self)]⟩
    | nil =>
      -- a numeral without digits before the point has a point
      have hfraction := (Numeral.free_iff.mp hfree).1.resolve_left (fun hne => hne hwhole)
      cases hpoint : n.fraction with
      | none => simp [hpoint] at hfraction
      | some digits => exact ⟨'.', rfl, rfl⟩

/-- A letter that a word begins with is no sign, no digit and no point. -/
theorem not_numeral_of_letter {c : Char} (h : c.toLower ∈ ['i', 'n']) :
    isSign c = false ∧ (c.isDigit || c == '.') = false := by
  have hself : c.toLower = c → c ∈ ['i', 'n'] := fun hself => hself ▸ h
  constructor
  · by_contra hsign
    rcases Numeral.isSign_iff.mp (Bool.not_eq_false _ ▸ hsign) with rfl | rfl <;>
      exact absurd (hself rfl) (by decide)
  · by_contra hhead
    rcases Bool.or_eq_true_iff.mp (Bool.not_eq_false _ ▸ hhead) with hdigit | hpoint
    · have hletter := hself (Char.toLower_of_isDigit hdigit)
      rcases (by simpa using hletter) with rfl | rfl <;> contradiction
    · rw [beq_iff_eq] at hpoint
      subst hpoint
      exact absurd (hself rfl) (by decide)

/-- A word does not have the looks of a numeral, since it begins with a letter. -/
theorem looksNumeric_of_isWord {text : List Char} (h : Number.IsWord text) :
    looksNumeric text = false := by
  obtain ⟨signs, word, rfl, hsigns, hword⟩ := h
  obtain ⟨c, rest, rfl, hletter⟩ : ∃ c rest, word = c :: rest ∧ c.toLower ∈ ['i', 'n'] := by
    cases word with
    | nil => simp at hword
    | cons c rest =>
      refine ⟨c, rest, rfl, ?_⟩
      rcases (by simpa using hword) with h | h | h <;> simp [h.1]
  obtain ⟨hsign, hhead⟩ := not_numeral_of_letter hletter
  have hdrop : (signs ++ c :: rest).dropWhile isSign = c :: rest := by
    rw [List.dropWhile_append_of_pos hsigns, List.dropWhile_cons_of_neg (by simp [hsign])]
  rw [← Bool.not_eq_true, looksNumeric_iff, hdrop]
  rintro ⟨-, d, hd, hdigit⟩
  obtain rfl : c = d := by simpa using hd
  exact absurd (hhead.symm.trans hdigit) (by decide)

/-! ## The reader behind it -/

/-- What is spelled by no numeral is spelled by a word. -/
theorem isWord_of_double? {text : List Char} {x : Float} (h : Number.double? text = some x)
    (hnone : Numeral.readFree? text = none) : Number.IsWord text := by
  rw [Number.double?, hnone] at h
  dsimp only at h
  rcases hsplit : Numeral.takeSign text with ⟨sign, word⟩
  rw [hsplit] at h
  obtain ⟨hsign, rfl⟩ := Numeral.takeSign_spec hsplit
  obtain ⟨_, hword, _⟩ := Option.map_eq_some_iff.mp h
  refine ⟨sign.toList, word, rfl, by simpa using hsign, ?_⟩
  unfold Number.ofWord? at hword
  split at hword
  next hinfinity => rcases hinfinity with h | h <;> simp [h]
  next =>
    split at hword
    next hnan => simp [hnan]
    next => contradiction

/-- **Only decimal numerals go through.** -/
theorem isSome_double?_iff {text : List Char} (h : looksNumeric text = true) :
    (Number.double? text).isSome = true ↔ IsDecimal text := by
  constructor
  · intro hsome
    obtain ⟨x, hx⟩ := Option.isSome_iff_exists.mp hsome
    rw [← Numeral.isSome_readFree?_iff]
    by_contra hnone
    have hword := isWord_of_double? hx (by simpa using hnone)
    exact absurd (h.symm.trans (looksNumeric_of_isWord hword)) (by decide)
  · intro hdecimal
    obtain ⟨n, hn⟩ := Option.isSome_iff_exists.mp (Numeral.isSome_readFree?_iff.mpr hdecimal)
    rw [Number.double?, hn]
    rfl

/-! ## Texts -/

/-- A sign or a point stands at a place that the grammar does not have, or the text is a word. -/
def IsMisspelled (text : List Char) : Prop :=
  HasStraySign text ∨ HasStrayPoint text ∨ Number.IsWord text

theorem IsMisspelled.ne_nil {text : List Char} (h : IsMisspelled text) : text ≠ [] := by
  rintro rfl
  rcases h with ⟨before, sign, hinfix, _⟩ | ⟨before, behind, htext, _⟩ | ⟨signs, word, htext, h⟩
  · simp at hinfix
  · simp at htext
  · obtain ⟨_, rfl⟩ := List.append_eq_nil_iff.mp htext.symm
    simp at h

theorem IsMisspelled.not_isDecimal {text : List Char} (h : IsMisspelled text) : ¬IsDecimal text := by
  intro hdecimal
  obtain ⟨n, hn, hfree, rfl⟩ := Numeral.isDecimal_iff.mp hdecimal
  rcases h with hsign | hpoint | hword
  · exact Numeral.not_hasStraySign hn hsign
  · exact Numeral.not_hasStrayPoint hn hfree hpoint
  · have hlooks := (looksNumeric_of_isDecimal hdecimal).symm.trans (looksNumeric_of_isWord hword)
    exact absurd hlooks (by decide)

theorem isSome_numberOfText?_iff {s : String} :
    (numberOfText? s).isSome = true ↔
      Text.trim s.toList = [] ∨ IsDecimal (Text.trim s.toList) := by
  unfold numberOfText?
  generalize Text.trim s.toList = text
  dsimp only
  split
  next hempty => simp [List.isEmpty_iff.mp hempty]
  next hne =>
    rw [List.isEmpty_iff] at hne
    split
    next hlooks => simp [isSome_double?_iff hlooks, hne]
    next hlooks =>
      have hnot : ¬IsDecimal text := mt looksNumeric_of_isDecimal hlooks
      simp [hne, hnot]

/-- **A text is a number exactly when it is blank or a decimal numeral** with blanks around it:
zero, or the number that the numeral spells. So signs and points are refused at all other places,
and so are the words for numbers. -/
theorem numberOfText?_spec (s : String) :
    let text := Text.trim s.toList
    ((numberOfText? s).isSome = true ↔ text = [] ∨ IsDecimal text) ∧
      (text = [] → numberOfText? s = some 0) ∧
      (IsDecimal text → numberOfText? s = Number.double? text) ∧
      (IsMisspelled text → numberOfText? s = none) := by
  intro text
  refine ⟨isSome_numberOfText?_iff, fun hempty => ?_, fun hdecimal => ?_, fun hmisspelled => ?_⟩
  · rw [numberOfText?, show Text.trim s.toList = [] from hempty]
    rfl
  · have hne : text.isEmpty = false := by
      rw [List.isEmpty_eq_false_iff]
      rintro hempty
      obtain ⟨c, hc, _⟩ := (looksNumeric_iff.mp (looksNumeric_of_isDecimal hdecimal)).2
      simp [hempty] at hc
    have hlooks : looksNumeric text = true := looksNumeric_of_isDecimal hdecimal
    simp [numberOfText?, show Text.trim s.toList = text from rfl, hne, hlooks]
  · rw [← Option.not_isSome_iff_eq_none, isSome_numberOfText?_iff]
    exact not_or.mpr ⟨hmisspelled.ne_nil, hmisspelled.not_isDecimal⟩

/-- A number with blanks around it, and a word with a sign. -/
theorem numberOfText?_spec_padded :
    numberOfText? " +1.50e-3\n" = Number.double? "+1.50e-3".toList ∧
      numberOfText? "-INF" = none ∧ numberOfText? "--1" = none := by
  refine ⟨(numberOfText?_spec " +1.50e-3\n").2.2.1 ?_, (numberOfText?_spec "-INF").2.2.2 ?_,
    (numberOfText?_spec "--1").2.2.2 ?_⟩
  · exact Numeral.isSome_readFree?_iff.mp rfl
  · have hsigns : ∀ c ∈ ['-'], isSign c = true := List.forall_mem_singleton.mpr rfl
    exact Or.inr (Or.inr ⟨['-'], "INF".toList, rfl, hsigns, List.mem_cons_self⟩)
  · exact Or.inl ⟨'-', '-', ⟨[], ['1'], rfl⟩, rfl, rfl⟩

end Value

end Symbology
