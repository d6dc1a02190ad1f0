import Symbology.Expr.Outcome
import Symbology.Proofs.Color.Channels
import Symbology.Proofs.Number.Text
import Symbology.Proofs.Text

set_option autoImplicit false

/-! # Colors are read from their text

The text of a color has a byte for each of red, green and blue, and the exact alpha. The reader
gives back the alpha and channels with the same bytes (`read_text`), so that only what does not show
in a byte is lost. Bytes and channels are scaled in different ways by the writer and the reader;
that a byte survives both is checked byte by byte (`byte_channel?`). -/

namespace Symbology.Color

open Number
open Numeral (isSign)

/-! ## Arguments -/

/-- The text is not empty and has only characters of numerals without an exponent. -/
structure IsPlain (arg : List Char) : Prop where
  ne_nil : arg ≠ []
  positional : ∀ c ∈ arg, (c.isDigit || isSign c || c == '.') = true

theorem isPlain_toDigits (n : ℕ) : IsPlain (Nat.toDigits 10 n) where
  ne_nil := Nat.toDigits_ne_nil
  positional c hc := by
    rw [Numeral.isDigit_of_mem_toDigits hc]
    rfl

theorem isPlain_chars {n : Numeral} (h : n.WellFormed) (hwhole : n.whole ≠ [])
    (hexponent : n.exponent = none) : IsPlain n.chars where
  ne_nil := by simp [Numeral.chars_eq, hwhole]
  positional c hc := by
    rw [Numeral.chars_eq, hexponent, Numeral.exponentChars, List.append_nil] at hc
    rcases List.mem_append.mp hc with hsign | hc
    · simp [h.sign c (by simpa using hsign)]
    rcases List.mem_append.mp hc with hdigit | hfraction
    · simp [h.whole c hdigit]
    · cases hn : n.fraction with
      | none => simp [hn, Numeral.fractionChars] at hfraction
      | some digits =>
        rw [hn, Numeral.fractionChars] at hfraction
        rcases List.mem_cons.mp hfraction with rfl | hdigit
        · rfl
        · simp [h.fraction digits hn c hdigit]

/-- What holds of digits, of the two signs and of the point holds of the characters of an
argument. -/
theorem IsPlain.forall_mem {arg : List Char} (h : IsPlain arg) {P : Char → Prop}
    (hdigit : ∀ c : Char, c.isDigit = true → P c) (hplus : P '+') (hminus : P '-') (hpoint : P '.') :
    ∀ c ∈ arg, P c := by
  intro c hc
  rcases Bool.or_eq_true_iff.mp (h.positional c hc) with hnumber | hpoint'
  · rcases Bool.or_eq_true_iff.mp hnumber with hdigit' | hsign
    · exact hdigit c hdigit'
    · rcases Numeral.isSign_iff.mp hsign with rfl | rfl
      · exact hplus
      · exact hminus
  · rw [beq_iff_eq] at hpoint'
    subst hpoint'
    exact hpoint

theorem IsPlain.not_isSeparator {arg : List Char} (h : IsPlain arg) :
    ∀ c ∈ arg, isSeparator c = false := by
  refine h.forall_mem (fun c hdigit => ?_) rfl rfl rfl
  by_contra hseparator
  simp only [isSeparator, Bool.not_eq_false, Bool.or_eq_true, beq_iff_eq] at hseparator
  rcases hseparator with ((rfl | rfl) | rfl) | rfl <;> contradiction

theorem IsPlain.toLower {arg : List Char} (h : IsPlain arg) : ∀ c ∈ arg, c.toLower = c :=
  h.forall_mem (fun _ => Char.toLower_of_isDigit) rfl rfl rfl

theorem IsPlain.ne_percent {arg : List Char} (h : IsPlain arg) : ∀ c ∈ arg, c ≠ '%' := by
  refine h.forall_mem ?_ (by decide) (by decide) (by decide)
  rintro c hdigit rfl
  contradiction

/-- An argument ends at a separator. -/
theorem arguments_append {arg : List Char} (hne : arg ≠ [])
    (harg : ∀ c ∈ arg, isSeparator c = false) {separator : Char}
    (hseparator : isSeparator separator = true) (rest : List Char) :
    arguments (arg ++ separator :: rest) = arg :: arguments rest := by
  induction arg with
  | nil => contradiction
  | cons c arg ih =>
    obtain ⟨hc, harg⟩ := List.forall_mem_cons.mp harg
    cases arg with
    | nil => simp [arguments, hc, hseparator]
    | cons next arg =>
      have hnext := harg next List.mem_cons_self
      simp only [List.cons_append] at ih ⊢
      rw [arguments, ih (by simp) harg]
      simp [hc, hnext]

theorem arguments_single {arg : List Char} (hne : arg ≠ [])
    (harg : ∀ c ∈ arg, isSeparator c = false) : arguments arg = [arg] := by
  induction arg with
  | nil => contradiction
  | cons c arg ih =>
    obtain ⟨hc, harg⟩ := List.forall_mem_cons.mp harg
    cases arg with
    | nil => simp [arguments, hc]
    | cons next arg =>
      have hnext := harg next List.mem_cons_self
      rw [arguments, ih (by simp) harg]
      simp [hc, hnext]

/-- A call is split into its name and its arguments. -/
theorem splitFunction?_call {name inner : List Char} (hname : '(' ∉ name)
    (htrim : Text.trim name = name) :
    splitFunction? (name ++ '(' :: (inner ++ [')'])) = some (name, arguments inner) := by
  have hne : ∀ c ∈ name, (c != '(') = true := fun c hc =>
    bne_iff_ne.mpr (ne_of_mem_of_not_mem hc hname)
  rw [splitFunction?, List.dropWhile_append_of_pos hne, List.takeWhile_append_of_pos hne]
  simp [htrim]

/-! ## Channels -/

theorem byte_lt (channel : Float32) : byte channel < 0x100 :=
  UInt8.toNat_lt _

/-- **A byte survives the reader**, which divides by 255, and the writer, which multiplies by it. -/
theorem byte_channel? {n : ℕ} (h : n < 0x100) :
    (channel? (Nat.toDigits 10 n)).map byte = some n := by
  have hbytes : ∀ n < 0x100, (channel? (Nat.toDigits 10 n)).map byte = some n := by decide +kernel
  exact hbytes n h

theorem exists_channel? (channel : Float32) :
    ∃ x, channel? (Nat.toDigits 10 (byte channel)) = some x ∧ byte x = byte channel :=
  Option.map_eq_some_iff.mp (byte_channel? (byte_lt channel))

/-- **The alpha channel is read from its text**, when it is in the range. -/
theorem alpha?_ofFloat32 {alpha : Float32} (h : InUnit alpha) :
    IsPlain (DecimalStyle.plain.ofFloat32 alpha) ∧
      alpha? (some (DecimalStyle.plain.ofFloat32 alpha)) = some alpha := by
  have htext := DecimalStyle.isText_ofFloat32 .plain h.between.finite
  have hplain := isPlain_chars htext.wellFormed (Numeral.whole_ne_nil_of_strict htext.strict)
    (DecimalStyle.exponent_numeralOf_plain _ _)
  have hchars : _ = DecimalStyle.plain.ofFloat32 alpha := htext.chars
  rw [← hchars]
  refine ⟨hplain, ?_⟩
  generalize DecimalStyle.numeralOf _ _ _ = n at *
  have hread : number? n.chars = some alpha := by
    rw [number?, Numeral.readFree?, Numeral.read?_chars htext.wellFormed, Option.filter_some,
      if_pos (Numeral.free_of_strict htext.strict)]
    exact congrArg some htext.toFloat32_eq
  have hpercent : n.chars.getLast? ≠ some '%' := fun hlast =>
    hplain.ne_percent _ (List.mem_of_getLast? hlast) rfl
  rw [alpha?, component?, if_neg hpercent, hread]
  simp [clamp_eq_self h.lower h.upper]

/-! ## The text of a color -/

/-- What stands between the parentheses in the text of a color. -/
def argumentChars (c : Color) : List Char :=
  Nat.toDigits 10 (byte c.red) ++ ',' :: (Nat.toDigits 10 (byte c.green) ++
    ',' :: (Nat.toDigits 10 (byte c.blue) ++ ',' :: DecimalStyle.plain.ofFloat32 c.alpha))

theorem chars_eq (c : Color) :
    c.chars = "rgba".toList ++ '(' :: (argumentChars c ++ [')']) := by
  have hname : "rgba(".toList = "rgba".toList ++ ['('] := rfl
  dsimp only [chars, argumentChars]
  simp only [hname, List.append_assoc, List.cons_append, List.nil_append]

/-- The text of a color holds its bytes and its alpha, and nothing else. -/
theorem text_eq_of_bytes {c c' : Color} (hbytes : c'.bytes = c.bytes) (halpha : c'.alpha = c.alpha) :
    c'.text = c.text := by
  simp only [bytes, List.cons.injEq] at hbytes
  obtain ⟨hred, hgreen, hblue, -⟩ := hbytes
  rw [text, text, chars_eq, chars_eq, argumentChars, argumentChars, hred, hgreen, hblue, halpha]

variable {c : Color}

theorem arguments_argumentChars (h : InUnit c.alpha) :
    arguments (argumentChars c) = [Nat.toDigits 10 (byte c.red), Nat.toDigits 10 (byte c.green),
      Nat.toDigits 10 (byte c.blue), DecimalStyle.plain.ofFloat32 c.alpha] := by
  have hbyte (channel : Float32) := isPlain_toDigits (byte channel)
  have halpha := (alpha?_ofFloat32 h).1
  have hcomma : isSeparator ',' = true := rfl
  rw [argumentChars, arguments_append (hbyte _).ne_nil (hbyte _).not_isSeparator hcomma,
    arguments_append (hbyte _).ne_nil (hbyte _).not_isSeparator hcomma,
    arguments_append (hbyte _).ne_nil (hbyte _).not_isSeparator hcomma,
    arguments_single halpha.ne_nil halpha.not_isSeparator]

/-- The text of a color is in lower case and has no blanks at its ends. -/
theorem map_toLower_trim_chars (h : InUnit c.alpha) :
    (Text.trim c.chars).map Char.toLower = c.chars := by
  have hbyte (channel : Float32) := (isPlain_toDigits (byte channel)).toLower
  have halpha := (alpha?_ofFloat32 h).1.toLower
  have hname : ∀ d ∈ "rgba".toList, d.toLower = d := by
    simp only [String.reduceToList, List.forall_mem_cons]
    exact ⟨rfl, rfl, rfl, rfl, List.forall_mem_nil _⟩
  have hlower : ∀ d ∈ c.chars, d.toLower = d := by
    simp only [chars_eq, argumentChars, List.forall_mem_append, List.forall_mem_cons]
    exact ⟨hname, rfl, ⟨hbyte _, rfl, hbyte _, rfl, hbyte _, rfl, halpha⟩, rfl,
      List.forall_mem_nil _⟩
  have hfirst : ∀ d ∈ c.chars.head?, Text.isBlank d = false := by
    rw [chars_eq]
    rintro d ⟨⟩
    rfl
  have hlast : ∀ d ∈ c.chars.getLast?, Text.isBlank d = false := by
    rw [chars_eq, ← List.cons_append, ← List.append_assoc, List.getLast?_concat]
    rintro d ⟨⟩
    rfl
  rw [Text.trim_eq_self hfirst hlast]
  exact (List.map_congr_left hlower).trans (List.map_id _)

/-! ## The reader -/

/-- A text that is a call is read as one, if it does not begin like hexadecimal digits. -/
theorem ofChars?_of_splitFunction? {text name : List Char} {args : List (List Char)}
    (h : splitFunction? text = some (name, args)) (hhead : text.head? ≠ some '#') :
    ofChars? text = ofFunction? name args := by
  unfold ofChars?
  split
  next htext =>
    subst htext
    contradiction
  next =>
    split
    · simp at hhead
    · rw [h]

/-- **A color is read from its text**, with the same alpha and the same bytes, and so with the same
text. A conversion to a string, or to JSON, and back to a color loses nothing else. -/
theorem read_text (h : InUnit c.alpha) :
    ∃ c', read c.text = .ok c' ∧ c'.alpha = c.alpha ∧ c'.bytes = c.bytes ∧ c'.text = c.text ∧
      Outcome.conversion .color [Outcome.conversion .string [.ok (.color c)]] = .ok (.color c') ∧
      (Value.ofJson (Value.color c).toJson).asColor? = some c' := by
  obtain ⟨red, hred, hredByte⟩ := exists_channel? c.red
  obtain ⟨green, hgreen, hgreenByte⟩ := exists_channel? c.green
  obtain ⟨blue, hblue, hblueByte⟩ := exists_channel? c.blue
  have hsplit : splitFunction? c.chars = some ("rgba".toList, arguments (argumentChars c)) := by
    rw [chars_eq]
    exact splitFunction?_call (by decide) rfl
  have hfunction : ofFunction? "rgba".toList (arguments (argumentChars c)) =
      some ⟨red, green, blue, c.alpha⟩ := by
    rw [arguments_argumentChars h, ofFunction?, if_pos (Or.inr rfl)]
    simp [ofRgbArguments?, hred, hgreen, hblue, (alpha?_ofFloat32 h).2]
  have hhead : c.chars.head? ≠ some '#' := by
    rw [chars_eq]
    exact fun h => absurd (Option.some.inj h) (by decide)
  have hread : read c.text = .ok ⟨red, green, blue, c.alpha⟩ := by
    rw [read, text, String.toList_ofList, map_toLower_trim_chars h,
      ofChars?_of_splitFunction? hsplit hhead, hfunction]
  have hbytes : bytes ⟨red, green, blue, c.alpha⟩ = c.bytes := by
    rw [bytes, bytes, hredByte, hgreenByte, hblueByte]
  have hvalue : (Value.string c.text).asColor? = some ⟨red, green, blue, c.alpha⟩ := by
    rw [Value.asColor?, hread]
    rfl
  refine ⟨_, hread, rfl, hbytes, text_eq_of_bytes hbytes rfl, ?_, hvalue⟩
  change Outcome.conversion .color [.ok (.string c.text)] = _
  simp only [Outcome.conversion, Outcome.firstConverted, Except.bind, hvalue, Option.map_some]

/-- A color with channels that are no numbers or out of range. -/
theorem read_text_extreme :
    InUnit 0.1 ∧ ∃ c', read (text ⟨0 / 0, 2, -1, 0.1⟩) = .ok c' ∧ c'.alpha = 0.1 ∧
      c'.bytes = bytes ⟨0 / 0, 2, -1, 0.1⟩ ∧ c'.text = text ⟨0 / 0, 2, -1, 0.1⟩ := by
  have h : InUnit 0.1 := ⟨rfl, by decide, by decide⟩
  obtain ⟨c', hread, halpha, hbytes, htext, -⟩ :=
    (read_text h : ∃ c', read (text ⟨0 / 0, 2, -1, 0.1⟩) = .ok c' ∧ _)
  exact ⟨h, c', hread, halpha, hbytes, htext⟩

end Symbology.Color
