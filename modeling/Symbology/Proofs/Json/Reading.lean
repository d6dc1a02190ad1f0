import Symbology.Proofs.Json.Building
import Symbology.Proofs.Json.Equality
import Symbology.Proofs.Number.Text

set_option autoImplicit false

/-! # Values are read as they are written

The text of a value spells the value (`chars_script`), so it is read as the document of the value
(`Document.read?_compact`). The value of the document is the value that was written, with its
members sorted (`read?_compact`). This holds of the values that a text can hold at all
(`WellFormed`): an integer has no more than 64 bits. -/

namespace Symbology.Json

/-! ## Numbers -/

namespace Number

/-- The numeral of a number. -/
def numeral : Number → Numeral
  | .integer n => ⟨if n < 0 then some '-' else none, Nat.toDigits 10 n.natAbs, none, none⟩
  | .float x _ => DecimalStyle.json.numeralOf .binary64 x.toModel.unpack

theorem chars_numeral (n : Number) : n.numeral.chars = n.chars := by
  cases n with
  | float x hfinite => exact (DecimalStyle.isText_ofFloat _ hfinite).chars
  | integer z =>
    cases z with
    | ofNat n => simp [numeral, chars, integerChars, Numeral.chars]
    | negSucc n => simp [numeral, chars, integerChars, Numeral.chars, Int.negSucc_lt_zero]

theorem wellFormed_numeral (n : Number) : n.numeral.WellFormed := by
  cases n with
  | float x hfinite => exact (DecimalStyle.isText_ofFloat _ hfinite).wellFormed
  | integer z =>
    refine ⟨?_, ?_, by simp [numeral], by simp [numeral], by simp [numeral], by simp [numeral]⟩
    · intro c hc
      dsimp only [numeral] at hc
      split at hc
      · obtain rfl := Option.some.inj hc
        rfl
      · contradiction
    · intro c hc
      exact Numeral.isDigit_of_mem_toDigits hc

theorem strict_numeral (n : Number) : n.numeral.strict = true := by
  cases n with
  | float x hfinite => exact (DecimalStyle.isText_ofFloat _ hfinite).strict
  | integer z =>
    refine Numeral.strict_of ?_ Nat.toDigits_ne_nil ?_ (by simp [numeral]) rfl
    · dsimp only [numeral]
      split <;> simp
    · rcases Nat.eq_zero_or_pos z.natAbs with hzero | hpos
      · right
        simp [numeral, hzero]
      · exact Or.inl (Numeral.head_toDigits hpos)

end Number

theorem Number.ofNumeral?_numeral {n : Number} (h : n.Fits) :
    ofNumeral? n.numeral = some n := by
  cases n with
  | float x hfinite =>
    have htext := DecimalStyle.isText_ofFloat DecimalStyle.json hfinite
    have hwhole : (Number.float x hfinite).numeral.isWhole = false := htext.fraction rfl
    have hvalue : (Number.float x hfinite).numeral.toFloat = x := htext.toFloat_eq
    simp [ofNumeral?, hwhole, hvalue, hfinite]
  | integer z =>
    obtain ⟨hlow, hhigh⟩ := h
    have hdigits : Nat.ofDigitChars 10 (Number.integer z).numeral.whole 0 = z.natAbs :=
      Nat.ofDigitChars_ten_toDigits
    have hwhole : (Number.integer z).numeral.isWhole = true := rfl
    unfold ofNumeral?
    rw [hdigits, hwhole]
    by_cases hneg : z < 0
    · have hnegative : (Number.integer z).numeral.negative = true := by
        simp [numeral, Numeral.negative, hneg]
      have hrange : 0 < z.natAbs ∧ z.natAbs ≤ 0x8000000000000000 := by omega
      have hvalue : -(z.natAbs : ℤ) = z := by omega
      rw [hnegative, if_neg (by simp), if_pos (by simp [hrange]), hvalue]
    · have hnegative : (Number.integer z).numeral.negative = false := by
        simp [numeral, Numeral.negative, hneg]
      have hrange : z.natAbs < 0x10000000000000000 := by omega
      have hvalue : (z.natAbs : ℤ) = z := by omega
      rw [hnegative, if_pos (by simp [hrange]), hvalue]

/-! ## How a value is spelled -/

mutual

/-- A value as its text spells it. -/
def script : Json → Script
  | .null => .null
  | .bool b => .bool b
  | .number n => .number n.numeral n.wellFormed_numeral n.strict_numeral
  | .string s => .string s
  | .array items => .array (itemScripts items)
  | .object members => .object (memberScripts members)

/-- How items are spelled. -/
def itemScripts : List Json → List Script
  | [] => []
  | json :: rest => script json :: itemScripts rest

/-- How members are spelled, with their keys. -/
def memberScripts : List (String × Json) → List (String × Script)
  | [] => []
  | (key, json) :: rest => (key, script json) :: memberScripts rest

end

mutual

theorem chars_script : ∀ json : Json, json.script.chars = json.chars
  | .null | .bool true | .bool false | .string _ | .array [] | .object [] => rfl
  | .number n => n.chars_numeral
  | .array (json :: rest) => by
    rw [chars, script, itemScripts, Script.chars, chars_script json, chars_itemScripts rest]
  | .object ((key, json) :: rest) => by
    rw [chars, script, memberScripts, Script.chars, chars_script json, chars_memberScripts rest]

theorem chars_itemScripts : ∀ items : List Json,
    Script.itemsChars (itemScripts items) = itemsChars items
  | [] => rfl
  | json :: rest => by
    rw [itemsChars, itemScripts, Script.itemsChars, chars_script json, chars_itemScripts rest]

theorem chars_memberScripts : ∀ members : List (String × Json),
    Script.membersChars (memberScripts members) = membersChars members
  | [] => rfl
  | (key, json) :: rest => by
    rw [membersChars, memberScripts, Script.membersChars, chars_script json,
      chars_memberScripts rest]

end

/-! ## The document of a value -/

mutual

/-- The document that is read from the text of a value. -/
def document : Json → Document
  | .null => .null
  | .bool b => .bool b
  | .number n => .number (Number.ofNumeral? n.numeral)
  | .string s => .string (some s)
  | .array items => .array (itemDocuments items)
  | .object members => .object (memberDocuments members)

/-- The documents of items. -/
def itemDocuments : List Json → List Document
  | [] => []
  | json :: rest => document json :: itemDocuments rest

/-- The keys and the documents of members. -/
def memberDocuments : List (String × Json) → List (Option String × Document)
  | [] => []
  | (key, json) :: rest => (some key, document json) :: memberDocuments rest

end

mutual

theorem document_script : ∀ json : Json, json.script.document = json.document
  | .null | .bool _ | .number _ | .string _ => rfl
  | .array items => by
    rw [document, script, Script.document, documents_itemScripts items]
  | .object members => by
    rw [document, script, Script.document, documents_memberScripts members]

theorem documents_itemScripts : ∀ items : List Json,
    Script.itemDocuments (itemScripts items) = itemDocuments items
  | [] => rfl
  | json :: rest => by
    rw [itemDocuments, itemScripts, Script.itemDocuments, document_script json,
      documents_itemScripts rest]

theorem documents_memberScripts : ∀ members : List (String × Json),
    Script.memberDocuments (memberScripts members) = memberDocuments members
  | [] => rfl
  | (key, json) :: rest => by
    rw [memberDocuments, memberScripts, Script.memberDocuments, document_script json,
      documents_memberScripts rest]

end

/-- A text of a value is read as the document of the value. -/
theorem Document.read?_compact (json : Json) :
    Document.read? json.compact = some json.document := by
  rw [compact, ← chars_script, Script.read?_chars, document_script]

/-! ## The value of the document -/

mutual

theorem json?_document : ∀ {json : Json}, json.WellFormed → json.document.json? = some json.sorted
  | .null, _ | .bool _, _ | .string _, _ => rfl
  | .number n, h => by
    cases h with
    | number fits => rw [document, Document.json?, Number.ofNumeral?_numeral fits]; rfl
  | .array items, h => by
    cases h with
    | array hitems => rw [document, Document.json?, itemsJson?_itemDocuments hitems]; rfl
  | .object members, h => by
    cases h with
    | object _ hmembers =>
      rw [document, Document.json?, membersJson?_memberDocuments hmembers]; rfl

theorem itemsJson?_itemDocuments : ∀ {items : List Json}, (∀ item ∈ items, item.WellFormed) →
    Document.itemsJson? (itemDocuments items) = some (sortedItems items)
  | [], _ => rfl
  | json :: rest, h => by
    have hjson := json?_document (h json List.mem_cons_self)
    have hrest := itemsJson?_itemDocuments (fun item hitem => h item (List.mem_cons_of_mem _ hitem))
    simp only [itemDocuments, Document.itemsJson?, hjson, hrest, sortedItems]

theorem membersJson?_memberDocuments : ∀ {members : List (String × Json)},
    (∀ member ∈ members, member.2.WellFormed) →
      Document.membersJson? (memberDocuments members) = some (sortedMembers members)
  | [], _ => rfl
  | (key, json) :: rest, h => by
    have hjson := json?_document (h (key, json) List.mem_cons_self)
    have hrest := membersJson?_memberDocuments
      (fun member hmember => h member (List.mem_cons_of_mem _ hmember))
    simp only [memberDocuments, Document.membersJson?, hjson, hrest, sortedMembers]

end

/-- **The text of a value is read as the value**, with the members of every object sorted. -/
theorem read?_compact {json : Json} (h : json.WellFormed) :
    read? json.compact = some json.sorted := by
  rw [read?, Document.read?_compact, Option.bind_some, json?_document h]

theorem read?_canonical {json : Json} (h : json.WellFormed) :
    read? json.canonical = some json.sorted := by
  rw [canonical, read?_compact h.sorted, sorted_sorted h]

end Symbology.Json
