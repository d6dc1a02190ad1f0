import Symbology.Color.Reader
import Symbology.Proofs.Color.Hsl
import Symbology.Proofs.Related

set_option autoImplicit false

/-! # Channels of colors that are read

A color that is read is meant to have channels between 0 and 1. It does when no number in it is
written as the word "nan" and a hue is finite (`isReal_iff_of_read`). The word is read like any
numeral, and goes through rounding and clamping as it is (`not_isReal_of_read`). -/

namespace Symbology.Color

open Number
open Numeral (takeSign)

/-! ## Numbers as they are written -/

/-- The text is the word for what is not a number, with or without a sign. -/
def SpellsNaN (text : List Char) : Prop :=
  (takeSign text).2 = "nan".toList

theorem isNaN_toFloat32 (n : Numeral) : n.toFloat32.isNaN = false := by
  refine (isNaN_ofModel_pack _).trans ?_
  unfold Decimal.round
  split
  · rfl
  · split
    · rfl
    · exact isNaN_canonical ..

theorem read?_of_spellsNaN {text : List Char} (h : SpellsNaN text) : Numeral.read? text = none := by
  unfold SpellsNaN at h
  unfold Numeral.read?
  generalize takeSign text = signed at h ⊢
  obtain ⟨sign, rest⟩ := signed
  subst h
  rfl

theorem isNaN_wordNumber?_iff {word : List Char} {x : Float32} (h : wordNumber? word = some x)
    (negative : Prop) [Decidable negative] :
    (if negative then -x else x).isNaN = true ↔ word = "nan".toList := by
  unfold wordNumber? ofWord? at h
  split at h
  next hinfinity =>
    obtain rfl := Option.some.inj h
    refine iff_of_false ?_ ?_
    · split <;> decide
    · rcases hinfinity with rfl | rfl <;> decide
  next =>
    split at h
    next hword =>
      obtain rfl := Option.some.inj h
      exact iff_of_true (by split <;> rfl) hword
    next => contradiction

/-- **Only the word for what is not a number is read as such.** -/
theorem isNaN_number?_iff {text : List Char} {x : Float32} (h : number? text = some x) :
    x.isNaN = true ↔ SpellsNaN text := by
  unfold number? at h
  split at h
  next numeral hread =>
    obtain rfl := Option.some.inj h
    rw [isNaN_toFloat32]
    refine iff_of_false (by decide) fun hword => ?_
    simp [Numeral.readFree?, read?_of_spellsNaN hword] at hread
  next =>
    obtain ⟨word, hword, rfl⟩ := Option.map_eq_some_iff.mp h
    exact isNaN_wordNumber?_iff hword _

/-! ## Arguments -/

/-- The argument is not the word for what is not a number, with or without a percent sign. -/
def IsNumber (arg : List Char) : Prop :=
  ¬SpellsNaN (if arg.getLast? = some '%' then arg.dropLast else arg)

instance (arg : List Char) : Decidable (IsNumber arg) :=
  inferInstanceAs (Decidable (¬_ = _))

theorem isNumber_iff_of_component? {arg : List Char} {x : Float32} {percent : Bool}
    (h : component? arg = some (x, percent)) : IsNumber arg ↔ x.isNaN = false := by
  rw [← Bool.not_eq_true]
  refine not_congr (Iff.symm ?_)
  unfold component? at h
  split at h
  next hpercent =>
    obtain ⟨_, hread, heq⟩ := Option.map_eq_some_iff.mp h
    obtain ⟨rfl, rfl⟩ := Prod.mk.inj heq
    rw [if_pos hpercent]
    exact isNaN_number?_iff hread
  next hpercent =>
    obtain ⟨_, hread, heq⟩ := Option.map_eq_some_iff.mp h
    obtain ⟨rfl, rfl⟩ := Prod.mk.inj heq
    rw [if_neg hpercent]
    exact isNaN_number?_iff hread

theorem isNonzero_100 : IsNonzero 100 :=
  ⟨_, _, _, _, rfl⟩

theorem single_255 : single 255 = 255 := by
  have hunpack : (255 : Float32).toModel.unpack = .finite .positive 0xff0000 (-16) (by decide) :=
    rfl
  rw [single_of_unpack hunpack]
  norm_num [signed]

/-- A part of 255 is a part of one. -/
theorem inUnit_div_255 {x : Float32} (h : Between 0 255 x) : InUnit (x / 255) := by
  refine inUnit_of_between (between_div isSingle_zero isSingle_one h.finite rfl ?_ ?_ ?_) <;>
    rw [single_255]
  · norm_num
  · exact div_nonneg h.lower (by norm_num)
  · exact (div_le_one (by norm_num)).mpr h.upper

/-- **A channel of `rgb` is in the range exactly when its argument is a number.** -/
theorem inUnit_channel?_iff {arg : List Char} {channel : Float32}
    (h : channel? arg = some channel) : InUnit channel ↔ IsNumber arg := by
  obtain ⟨⟨value, percent⟩, hcomponent, rfl⟩ := Option.map_eq_some_iff.mp h
  have hscaled : (if percent then value / 100 * 255 else value).isNaN = value.isNaN := by
    cases percent with
    | false => rfl
    | true =>
      exact (isNaN_mul_of_isNonzero isNonzero_255).trans (isNaN_div_of_isNonzero isNonzero_100)
  rw [isNumber_iff_of_component? hcomponent, ← hscaled, ← isNaN_roundHalfAway]
  dsimp only
  generalize roundHalfAway _ = x
  cases hx : x.isNaN with
  | true =>
    rw [clamp_of_isNaN hx]
    refine iff_of_false (not_inUnit_of_isNaN ?_) (by decide)
    rw [isNaN_div_of_isNonzero isNonzero_255, hx]
  | false =>
    obtain ⟨hlower, hupper⟩ := clamp_mem (by decide : (0 : Float32) ≤ 255) hx
    have hbetween := between_of_le rfl rfl hlower hupper
    rw [single_zero, single_255] at hbetween
    exact iff_of_true (inUnit_div_255 hbetween) rfl

theorem inUnit_alpha?_iff {arg : Option (List Char)} {alpha : Float32}
    (h : alpha? arg = some alpha) : InUnit alpha ↔ ∀ written ∈ arg, IsNumber written := by
  cases arg with
  | none =>
    obtain rfl := Option.some.inj h
    exact iff_of_true inUnit_one (by simp)
  | some arg =>
    obtain ⟨⟨value, percent⟩, hcomponent, rfl⟩ := Option.map_eq_some_iff.mp h
    have hscaled : (if percent then value / 100 else value).isNaN = value.isNaN := by
      cases percent with
      | false => rfl
      | true => exact isNaN_div_of_isNonzero isNonzero_100
    simp only [inUnit_clamp_iff, hscaled, Option.mem_def, Option.some.injEq, forall_eq',
      isNumber_iff_of_component? hcomponent]

/-- A share is brought into the range from a number that is one if its argument is. -/
theorem exists_of_share? {arg : List Char} {share : Float32} (h : share? arg = some share) :
    ∃ x, share = clamp 0 1 x ∧ (IsNumber arg ↔ x.isNaN = false) := by
  obtain ⟨⟨value, percent⟩, hcomponent, rfl⟩ := Option.map_eq_some_iff.mp h
  exact ⟨value / 100, rfl, by
    rw [isNumber_iff_of_component? hcomponent, isNaN_div_of_isNonzero isNonzero_100]⟩

/-! ## Functions -/

/-- At most one argument is left for alpha. -/
theorem forall_head?_iff {rest : List (List Char)} (h : ¬1 < rest.length) (P : List Char → Prop) :
    (∀ arg ∈ rest.head?, P arg) ↔ ∀ arg ∈ rest, P arg := by
  rcases rest with _ | ⟨alpha, _ | ⟨_, rest⟩⟩
  · simp
  · simp
  · simp at h

theorem isReal_ofRgbArguments?_iff {args : List (List Char)} {color : Color}
    (h : ofRgbArguments? args = some color) : color.IsReal ↔ ∀ arg ∈ args, IsNumber arg := by
  unfold ofRgbArguments? at h
  split at h
  next red green blue rest =>
    split at h
    · contradiction
    next hlength =>
      split at h
      next hred hgreen hblue halpha =>
        obtain rfl := Option.some.inj h
        simp only [isReal_iff, inUnit_channel?_iff hred, inUnit_channel?_iff hgreen,
          inUnit_channel?_iff hblue, inUnit_alpha?_iff halpha,
          forall_head?_iff hlength, List.forall_mem_cons, and_assoc]
      · contradiction
  · contradiction

theorem isReal_ofHslArguments?_iff {args : List (List Char)} {color : Color}
    (h : ofHslArguments? args = some color) :
    color.IsReal ↔ (∀ degrees ∈ args.head?.bind hue?, degrees.isFinite = true) ∧
      ∀ arg ∈ args.tail, IsNumber arg := by
  unfold ofHslArguments? at h
  split at h
  next hue saturation lightness rest =>
    split at h
    · contradiction
    next hlength =>
      split at h
      next hhue hsaturation hlightness halpha =>
        obtain rfl := Option.some.inj h
        obtain ⟨s, rfl, hs⟩ := exists_of_share? hsaturation
        obtain ⟨l, rfl, hl⟩ := exists_of_share? hlightness
        rw [isReal_ofHsl_iff, inUnit_alpha?_iff halpha, forall_head?_iff hlength, ← hs, ← hl]
        simp [hhue]
      · contradiction
  · contradiction

/-- **The condition on the arguments of a function.** No argument is the word for what is not a
number, and a hue is finite. -/
def AreNumbers (name : List Char) (args : List (List Char)) : Prop :=
  if name = "hsl".toList ∨ name = "hsla".toList then
    (∀ degrees ∈ args.head?.bind hue?, degrees.isFinite = true) ∧ ∀ arg ∈ args.tail, IsNumber arg
  else ∀ arg ∈ args, IsNumber arg

instance (name : List Char) (args : List (List Char)) : Decidable (AreNumbers name args) :=
  inferInstanceAs (Decidable (ite _ _ _))

theorem isReal_ofFunction?_iff {name : List Char} {args : List (List Char)} {color : Color}
    (h : ofFunction? name args = some color) : color.IsReal ↔ AreNumbers name args := by
  unfold ofFunction? at h
  split at h
  next hname =>
    have hother : ¬(name = "hsl".toList ∨ name = "hsla".toList) := by
      rcases hname with rfl | rfl <;> decide
    rw [AreNumbers, if_neg hother]
    exact isReal_ofRgbArguments?_iff h
  next =>
    split at h
    next hname =>
      rw [AreNumbers, if_pos hname]
      exact isReal_ofHslArguments?_iff h
    next => contradiction

theorem splitFunction?_of_not_mem {text : List Char} (h : '(' ∉ text) :
    splitFunction? text = none := by
  have hall : text.dropWhile (· != '(') = [] := by
    rw [List.dropWhile_eq_nil_iff]
    intro c hc
    exact bne_iff_ne.mpr (ne_of_mem_of_not_mem hc h)
  rw [splitFunction?, hall]

theorem exists_hexDigit? {text : List Char} {digits : List ℕ}
    (h : text.mapM hexDigit? = some digits) : ∀ c ∈ text, (hexDigit? c).isSome := by
  intro c hc
  obtain ⟨_, _, hdigit⟩ := (List.mapM_eq_some_iff.mp h).flip.exists_of_mem_right hc
  exact Option.isSome_of_eq_some hdigit

/-- Hexadecimal digits are not followed by arguments. -/
theorem not_mem_of_ofHex? {text : List Char} {color : Color} (h : ofHex? text = some color) :
    '(' ∉ text := by
  obtain ⟨digits, hdigits, _⟩ := Option.bind_eq_some_iff.mp h
  exact fun hmem => absurd (exists_hexDigit? hdigits _ hmem) (by decide)

/-! ## The reader -/

/-- The function with arguments that a text spells, in lower case and without blanks around. -/
def function? (text : String) : Option (List Char × List (List Char)) :=
  splitFunction? ((Text.trim text.toList).map Char.toLower)

theorem isReal_ofChars?_iff {text : List Char} {color : Color} (h : ofChars? text = some color) :
    color.IsReal ↔ ∀ name args, splitFunction? text = some (name, args) → AreNumbers name args := by
  have hplain (hnone : splitFunction? text = none) (hreal : color.IsReal) : color.IsReal ↔
      ∀ name args, splitFunction? text = some (name, args) → AreNumbers name args :=
    iff_of_true hreal (by simp [hnone])
  unfold ofChars? at h
  split at h
  next htext =>
    subst htext
    obtain rfl := Option.some.inj h
    exact hplain rfl ⟨inUnit_zero, inUnit_zero, inUnit_zero, inUnit_zero⟩
  next =>
    split at h
    next digits =>
      exact hplain (splitFunction?_of_not_mem (by simpa using not_mem_of_ofHex? h)) (isReal_ofHex? h)
    next =>
      split at h
      next name args hsplit =>
        rw [isReal_ofFunction?_iff h, hsplit]
        simp
      next hsplit =>
        obtain ⟨rgb, _, rfl⟩ := Option.map_eq_some_iff.mp h
        exact hplain hsplit (isReal_ofRgb rgb rfl)

/-- **A color that is read has channels between 0 and 1 exactly when no number in it is written as
the word for what is not one, and a hue is finite.** -/
theorem isReal_iff_of_read {text : String} {color : Color} (h : read text = .ok color) :
    color.IsReal ↔ ∀ name args, function? text = some (name, args) → AreNumbers name args := by
  unfold read at h
  split at h
  next hcolor =>
    obtain rfl := Except.ok.inj h
    exact isReal_ofChars?_iff hcolor
  next => contradiction

theorem isReal_iff_of_read_hsl :
    ∃ color, read "hsl(120, 100%, 50%)" = .ok color ∧ color.IsReal := by
  have hread : read "hsl(120, 100%, 50%)" = .ok ⟨0, 1, 0, 1⟩ := by decide +kernel
  have hfunction : function? "hsl(120, 100%, 50%)" =
      some ("hsl".toList, ["120".toList, "100%".toList, "50%".toList]) := by decide +kernel
  refine ⟨_, hread, (isReal_iff_of_read hread).mpr ?_⟩
  rw [hfunction]
  rintro _ _ ⟨⟩
  decide +kernel

/-- The word for what is not a number makes a color with a channel that is not one. -/
theorem not_isReal_of_read : ¬∀ text color, read text = .ok color → color.IsReal := by
  intro h
  have hread : read "rgb(nan, 0, 0)" = .ok ⟨Float32.nan, 0, 0, 1⟩ := by decide +kernel
  have hred := (h _ _ hread).red.number
  contradiction

end Symbology.Color
