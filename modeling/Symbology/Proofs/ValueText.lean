import Symbology.Proofs.Json.Reading
import Symbology.Proofs.Number.Faithful
import Symbology.Value.Text

set_option autoImplicit false

/-! # The text of a value is JSON

A value is made into JSON in two ways: as a JSON value (`Value.toJson`) and, when it is an array or
an object, as a text (`Value.text`). They do not write numbers in the same style, and the text is
not made from the JSON value. Still they say the same (`Value.read?_text`): the text spells a JSON
value (`Value.chars_script`), and this value stands for what the other one stands for. -/

namespace Symbology

open Float.Model.UnpackedFloat (Sign)

/-! ## Numerals of finite numbers -/

namespace Number

theorem ofInt_neg_natCast {n : ℕ} (h : 0 < n) : ofInt (-n) = ofRatio .negative n 1 := by
  obtain ⟨n, rfl⟩ := Nat.exists_eq_succ_of_ne_zero h.ne'
  rfl

/-- A whole decimal that is not too long is rounded as a whole number. -/
theorem toFloat_whole (sign : Sign) {n : ℕ} (hn : n < 10 ^ 20) :
    (⟨n, 0⟩ : Decimal).toFloat sign = ofRatio sign n 1 := by
  have hlength : (Nat.toDigits 10 n).length ≤ 20 :=
    (Nat.length_toDigits_le_iff (by norm_num) (by norm_num)).mpr hn
  have hpoint : 0 ≤ (⟨n, 0⟩ : Decimal).point ∧ (⟨n, 0⟩ : Decimal).point ≤ 20 := by
    simp only [Decimal.point, Decimal.digits]
    omega
  rw [Decimal.toFloat, Decimal.round, ofRatio]
  by_cases hzero : n = 0
  · rw [if_pos (Or.inl hzero), hzero, roundRatio_zero]
  · rw [if_neg (not_or.mpr ⟨hzero, by omega⟩), if_neg (by omega)]
    simp [scale]

end Number

namespace Json.Number

/-- **A numeral of a finite number is read as this number**, whether it is whole or not. -/
theorem exists_ofNumeral? {n : Numeral} (hfinite : n.toFloat.isFinite = true) :
    ∃ m, ofNumeral? n = some m ∧ m.toFloat = n.toFloat := by
  have hwhole (h : n.isWhole = true) :
      n.magnitude = ⟨Nat.ofDigitChars 10 n.whole 0, 0⟩ := by
    simp only [Numeral.isWhole, Bool.and_eq_true, Option.isNone_iff_eq_none] at h
    simp [Numeral.magnitude, Numeral.fractionDigits, Numeral.exponentValue, h]
  unfold ofNumeral?
  dsimp only
  split
  next hunsigned =>
    simp only [Bool.and_eq_true, Bool.not_eq_true', decide_eq_true_eq] at hunsigned
    obtain ⟨⟨hw, hsign⟩, hlt⟩ := hunsigned
    refine ⟨_, rfl, ?_⟩
    rw [Numeral.toFloat, Numeral.signValue, hsign, hwhole hw,
      Symbology.Number.toFloat_whole _ (hlt.trans (by norm_num))]
    rfl
  next =>
    split
    next hsigned =>
      simp only [Bool.and_eq_true, decide_eq_true_eq] at hsigned
      obtain ⟨⟨hw, hsign⟩, hpos, hle⟩ := hsigned
      refine ⟨_, rfl, ?_⟩
      rw [Numeral.toFloat, Numeral.signValue, hsign, hwhole hw,
        Symbology.Number.toFloat_whole _ (hle.trans_lt (by norm_num))]
      exact Symbology.Number.ofInt_neg_natCast hpos
    next => exact ⟨_, rfl, rfl⟩

end Json.Number

/-! ## Colors -/

namespace Json

/-- The character stands as itself in a string. -/
def isUnescaped (c : Char) : Bool :=
  c != '"' && c != '\\' && 0x20 ≤ c.toNat

theorem escapedChar_of_isUnescaped {c : Char} (h : isUnescaped c = true) : escapedChar c = [c] := by
  simp only [isUnescaped, Bool.and_eq_true, bne_iff_ne, decide_eq_true_eq] at h
  obtain ⟨⟨hquote, hbackslash⟩, hle⟩ := h
  have hne {control : Char} (hcontrol : control.toNat < 0x20) : c ≠ control := by
    rintro rfl
    omega
  rw [escapedChar, if_neg (by simp [hquote, hbackslash]), if_neg (hne (by decide)),
    if_neg (hne (by decide)), if_neg (hne (by decide)), if_neg (hne (by decide)),
    if_neg (hne (by decide)), if_neg (not_lt.mpr hle)]

theorem flatMap_escapedChar {cs : List Char} (h : cs.all isUnescaped = true) :
    cs.flatMap escapedChar = cs := by
  induction cs with
  | nil => rfl
  | cons c cs ih =>
    obtain ⟨hc, hcs⟩ := Bool.and_eq_true_iff.mp h
    rw [List.flatMap_cons, escapedChar_of_isUnescaped hc, ih hcs]
    rfl

theorem isUnescaped_of_isDigit {c : Char} (h : c.isDigit = true) : isUnescaped c = true := by
  obtain ⟨hlow, _⟩ := Char.isDigit_iff_toNat.mp h
  have hlow' : 48 ≤ c.toNat := hlow
  have hle : 0x20 ≤ c.toNat := by omega
  have hquote : c ≠ '"' := by rintro rfl; contradiction
  have hbackslash : c ≠ '\\' := by rintro rfl; contradiction
  simp [isUnescaped, hquote, hbackslash, hle]

theorem isUnescaped_of_isNumeric {c : Char} (h : Numeral.isNumeric c = true) :
    isUnescaped c = true := by
  simp only [Numeral.isNumeric, Numeral.isSign, Numeral.isExponentMark, Bool.or_eq_true,
    beq_iff_eq] at h
  rcases h with ((hdigit | rfl | rfl) | rfl | rfl) | rfl
  · exact isUnescaped_of_isDigit hdigit
  all_goals rfl

/-- Nothing is escaped in the text of a number, also when it is not a numeral. -/
theorem all_isUnescaped_ofFloat32 (x : Float32) :
    (DecimalStyle.plain.ofFloat32 x).all isUnescaped = true := by
  cases hfinite : x.isFinite with
  | true =>
    have htext := DecimalStyle.isText_ofFloat32 .plain hfinite
    have hchars : _ = DecimalStyle.plain.ofFloat32 x := htext.chars
    rw [← hchars, List.all_eq_true]
    exact fun c hc => isUnescaped_of_isNumeric (Numeral.isNumeric_of_mem_chars htext.wellFormed hc)
  | false =>
    change x.toModel.unpack.isFinite = false at hfinite
    unfold DecimalStyle.ofFloat32
    cases hx : x.toModel.unpack with
    | zero | finite =>
      rw [hx] at hfinite
      contradiction
    | notANumber => rfl
    | infinity sign => cases sign <;> rfl

end Json

namespace Color

theorem all_isUnescaped_chars (c : Color) : c.chars.all Json.isUnescaped = true := by
  have hbyte (n : ℕ) : (Nat.toDigits 10 n).all Json.isUnescaped = true :=
    List.all_eq_true.mpr
      (fun _ hc => Json.isUnescaped_of_isDigit (Numeral.isDigit_of_mem_toDigits hc))
  have hname : "rgba(".toList.all Json.isUnescaped = true := rfl
  have hcomma : Json.isUnescaped ',' = true := rfl
  have hend : Json.isUnescaped ')' = true := rfl
  dsimp only [chars]
  simp only [List.all_append, List.all_cons, List.all_nil, hbyte, hname, hcomma, hend,
    Json.all_isUnescaped_ofFloat32, Bool.and_self]

/-- The text of a color stands between quotes as it is. -/
theorem stringChars_text (c : Color) : Json.stringChars c.text = '"' :: (c.chars ++ ['"']) := by
  rw [Json.stringChars, text, String.toList_ofList,
    Json.flatMap_escapedChar c.all_isUnescaped_chars]

end Color

namespace Value

open Json (Script Document)

/-! ## How a value is spelled -/

/-- A number as it is spelled; one that is not finite has no spelling. -/
def numberScript (x : Float) : Script :=
  if h : x.isFinite = true then
    have htext := DecimalStyle.isText_ofFloat .plain h
    .number _ htext.wellFormed htext.strict
  else .null

mutual

/-- A value as its JSON text spells it. -/
def script : Value → Script
  | .null => .null
  | .bool b => .bool b
  | .number x => numberScript x
  | .string s => .string s
  | .color c => .string c.text
  | .array items => .array (itemScripts items)
  | .object members => .object (memberScripts members)

/-- How items are spelled. -/
def itemScripts : List Value → List Script
  | [] => []
  | value :: rest => script value :: itemScripts rest

/-- How members are spelled, with their keys. -/
def memberScripts : List (String × Value) → List (String × Script)
  | [] => []
  | (key, value) :: rest => (key, script value) :: memberScripts rest

end

theorem chars_numberScript (x : Float) : (numberScript x).chars = numberChars x := by
  unfold numberScript numberChars
  split
  next hfinite => exact (DecimalStyle.isText_ofFloat .plain hfinite).chars
  next => rfl

mutual

/-- **The JSON text of a value spells the value.** -/
theorem chars_script : ∀ value : Value, value.script.chars = value.jsonChars
  | .null | .bool true | .bool false | .string _ | .array [] | .object [] => rfl
  | .number x => chars_numberScript x
  | .color c => c.stringChars_text
  | .array (value :: rest) => by
    rw [jsonChars, script, itemScripts, Script.chars, chars_script value, chars_itemScripts rest]
  | .object ((key, value) :: rest) => by
    rw [jsonChars, script, memberScripts, Script.chars, chars_script value,
      chars_memberScripts rest]

theorem chars_itemScripts : ∀ items : List Value,
    Script.itemsChars (itemScripts items) = jsonItemsChars items
  | [] => rfl
  | value :: rest => by
    rw [jsonItemsChars, itemScripts, Script.itemsChars, chars_script value, chars_itemScripts rest]

theorem chars_memberScripts : ∀ members : List (String × Value),
    Script.membersChars (memberScripts members) = jsonMembersChars members
  | [] => rfl
  | (key, value) :: rest => by
    rw [jsonMembersChars, memberScripts, Script.membersChars, chars_script value,
      chars_memberScripts rest]

end

/-! ## What the text stands for -/

/-- The members of every object in the value are in ascending order. -/
inductive Ordered : Value → Prop
  | null : Ordered .null
  | bool (b : Bool) : Ordered (.bool b)
  | number (x : Float) : Ordered (.number x)
  | string (s : String) : Ordered (.string s)
  | color (c : Color) : Ordered (.color c)
  | array {items : List Value} (items_ordered : ∀ item ∈ items, Ordered item) :
      Ordered (.array items)
  | object {members : List (String × Value)} (ascending : Members.Ascending members)
      (members_ordered : ∀ member ∈ members, Ordered member.2) : Ordered (.object members)

/-- The value is one that JSON has: it contains no color, and all its numbers are finite. -/
inductive IsJson : Value → Prop
  | null : IsJson .null
  | bool (b : Bool) : IsJson (.bool b)
  | number {x : Float} (finite : x.isFinite = true) : IsJson (.number x)
  | string (s : String) : IsJson (.string s)
  | array {items : List Value} (items_json : ∀ item ∈ items, IsJson item) : IsJson (.array items)
  | object {members : List (String × Value)} (members_json : ∀ member ∈ members, IsJson member.2) :
      IsJson (.object members)

/-- A number is read as what it stands for in JSON: itself, or `null` if it is not finite. -/
theorem exists_json?_numberScript (x : Float) : ∃ json,
    (numberScript x).document.json? = some json ∧ ofJson json = ofJson (Json.ofFloat x) := by
  unfold numberScript Json.ofFloat
  split
  next hfinite =>
    have hx := (DecimalStyle.isText_ofFloat .plain hfinite).toFloat_eq
    obtain ⟨m, hm, hvalue⟩ := Json.Number.exists_ofNumeral? (hx.symm ▸ hfinite)
    refine ⟨.number m, ?_, ?_⟩
    · rw [Script.document, hm]
      rfl
    · rw [ofJson, hvalue, hx]
      rfl
  next => exact ⟨.null, rfl, rfl⟩

mutual

/-- What a value spells is a JSON value that stands for the same as the JSON value made of it. -/
theorem exists_json?_script : ∀ {value : Value}, value.Ordered → ∃ json,
    value.script.document.json? = some json ∧ ofJson json = ofJson value.toJson
  | .null, _ | .bool _, _ | .string _, _ | .color _, _ => ⟨_, rfl, rfl⟩
  | .number x, _ => exists_json?_numberScript x
  | .array items, h => by
    cases h with
    | array hitems =>
      obtain ⟨jsons, hjsons, hvalues⟩ := exists_itemsJson?_itemScripts hitems
      refine ⟨.array jsons, ?_, ?_⟩
      · rw [script, Script.document, Document.json?, hjsons]
        rfl
      · rw [toJson, ofJson, ofJson, hvalues]
  | .object members, h => by
    cases h with
    | object hascending hmembers =>
      obtain ⟨pairs, hpairs, hkeys, hvalues⟩ := exists_membersJson?_memberScripts hmembers
      have hascending' : Members.Ascending pairs := by
        rw [Members.Ascending, ← List.pairwise_map] at hascending ⊢
        rwa [hkeys]
      refine ⟨.object pairs, ?_, ?_⟩
      · rw [script, Script.document, Document.json?, hpairs, Option.map_some,
          Members.ofList_of_ascending hascending']
      · rw [toJson, ofJson, ofJson, hvalues]

theorem exists_itemsJson?_itemScripts : ∀ {items : List Value}, (∀ item ∈ items, item.Ordered) →
    ∃ jsons, Document.itemsJson? (Script.itemDocuments (itemScripts items)) = some jsons ∧
      ofJsonItems jsons = ofJsonItems (toJsonItems items)
  | [], _ => ⟨[], rfl, rfl⟩
  | value :: rest, h => by
    obtain ⟨hvalue, hrest⟩ := List.forall_mem_cons.mp h
    obtain ⟨json, hjson, hsame⟩ := exists_json?_script hvalue
    obtain ⟨jsons, hjsons, hsames⟩ := exists_itemsJson?_itemScripts hrest
    refine ⟨json :: jsons, ?_, ?_⟩
    · simp only [itemScripts, Script.itemDocuments, Document.itemsJson?, hjson, hjsons]
    · rw [toJsonItems, ofJsonItems, ofJsonItems, hsame, hsames]

theorem exists_membersJson?_memberScripts : ∀ {members : List (String × Value)},
    (∀ member ∈ members, member.2.Ordered) → ∃ pairs,
      Document.membersJson? (Script.memberDocuments (memberScripts members)) = some pairs ∧
        pairs.map Prod.fst = members.map Prod.fst ∧
        ofJsonMembers pairs = ofJsonMembers (toJsonMembers members)
  | [], _ => ⟨[], rfl, rfl, rfl⟩
  | (key, value) :: rest, h => by
    obtain ⟨hvalue, hrest⟩ := List.forall_mem_cons.mp h
    obtain ⟨json, hjson, hsame⟩ := exists_json?_script hvalue
    obtain ⟨pairs, hpairs, hkeys, hsames⟩ := exists_membersJson?_memberScripts hrest
    refine ⟨(key, json) :: pairs, ?_, ?_, ?_⟩
    · simp only [memberScripts, Script.memberDocuments, Document.membersJson?, hjson, hpairs]
    · rw [List.map_cons, List.map_cons, hkeys]
    · rw [toJsonMembers, ofJsonMembers, ofJsonMembers, hsame, hsames]

end

mutual

/-- **A value that JSON has is the value of its JSON value.** -/
theorem ofJson_toJson : ∀ {value : Value}, value.IsJson → ofJson value.toJson = value
  | .null, _ | .bool _, _ | .string _, _ => rfl
  | .color c, h => nomatch h
  | .number x, h => by
    cases h with
    | number finite =>
      rw [toJson, Json.ofFloat, dif_pos finite]
      rfl
  | .array items, h => by
    cases h with
    | array hitems => rw [toJson, ofJson, ofJsonItems_toJsonItems hitems]
  | .object members, h => by
    cases h with
    | object hmembers => rw [toJson, ofJson, ofJsonMembers_toJsonMembers hmembers]

theorem ofJsonItems_toJsonItems : ∀ {items : List Value}, (∀ item ∈ items, item.IsJson) →
    ofJsonItems (toJsonItems items) = items
  | [], _ => rfl
  | value :: rest, h => by
    obtain ⟨hvalue, hrest⟩ := List.forall_mem_cons.mp h
    rw [toJsonItems, ofJsonItems, ofJson_toJson hvalue, ofJsonItems_toJsonItems hrest]

theorem ofJsonMembers_toJsonMembers : ∀ {members : List (String × Value)},
    (∀ member ∈ members, member.2.IsJson) → ofJsonMembers (toJsonMembers members) = members
  | [], _ => rfl
  | (key, value) :: rest, h => by
    obtain ⟨hvalue, hrest⟩ := List.forall_mem_cons.mp h
    rw [toJsonMembers, ofJsonMembers, ofJson_toJson hvalue, ofJsonMembers_toJsonMembers hrest]

end

/-! ## Arrays and objects -/

/-- The value is an array or an object. -/
def isCollection : Value → Bool
  | .array _ | .object _ => true
  | _ => false

theorem chars_of_isCollection {value : Value} (h : value.isCollection = true) :
    value.chars = value.jsonChars := by
  cases value with
  | array | object => rfl
  | _ => contradiction

/-- **The text of an array or an object is one JSON value, which stands for the same as the JSON
value made of it.** When it contains no color and only finite numbers, it is the value itself. -/
theorem read?_text {value : Value} (hordered : value.Ordered)
    (hcollection : value.isCollection = true) :
    ∃ json, Json.read? value.text = some json ∧ ofJson json = ofJson value.toJson ∧
      (value.IsJson → ofJson json = value) := by
  obtain ⟨json, hjson, hsame⟩ := exists_json?_script hordered
  refine ⟨json, ?_, hsame, fun h => hsame.trans (ofJson_toJson h)⟩
  rw [Json.read?, text, chars_of_isCollection hcollection, ← chars_script, Script.read?_chars,
    Option.bind_some, hjson]

/-- An array with a color and a number that is not finite, and an object that JSON has. -/
theorem read?_text_nested :
    (∃ json, Json.read? (text (.array [.color .transparent, .number (1 / 0)])) = some json ∧
      ofJson json = .array [.string "rgba(0,0,0,0)", .null]) ∧
    ∃ json, Json.read? (text (.object [("a", .array [.number 0.5]), ("b", .string "x")])) =
      some json ∧ ofJson json = .object [("a", .array [.number 0.5]), ("b", .string "x")] := by
  constructor
  · have hordered : (array [.color .transparent, .number (1 / 0)]).Ordered :=
      .array (by simp [Ordered.color, Ordered.number])
    obtain ⟨json, hread, hsame, -⟩ := read?_text hordered rfl
    exact ⟨json, hread, hsame⟩
  · have hitems : (array [.number 0.5]).Ordered := .array (by simp [Ordered.number])
    have hordered : (object [("a", .array [.number 0.5]), ("b", .string "x")]).Ordered :=
      .object (List.pairwise_pair.mpr (by decide)) (by simp [hitems, Ordered.string])
    have hnumber : (number 0.5).IsJson := .number rfl
    have hitemsJson : (array [.number 0.5]).IsJson := .array (by simp [hnumber])
    have hjson : (object [("a", .array [.number 0.5]), ("b", .string "x")]).IsJson :=
      .object (by simp [hitemsJson, IsJson.string])
    obtain ⟨json, hread, -, hself⟩ := read?_text hordered rfl
    exact ⟨json, hread, hself hjson⟩

end Value

end Symbology
