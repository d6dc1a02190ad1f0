import Symbology.Json.Printer
import Symbology.Json.Token
import Symbology.Proofs.Number.Numeral

set_option autoImplicit false

/-! # The text of a value is cut into its tokens

Two kinds of values have a text in JSON, with numbers in different styles. A `Script` is what both
have in common: a value whose numbers are numerals. Scanning its text gives its tokens
(`Script.tokens?_chars`). Brackets, strings and words end by themselves; a number ends with the
character behind it, which no number holds. So the induction over the value keeps hold of a scanner
that has read all of a value but may still be inside of it. -/

/-! ## Folds step by step -/

section

variable {α β : Type} {f : β → α → Option β} {s t : β} {a : α} {xs ys : List α}

theorem List.foldlM_cons_of_some (h : f s a = some t) : (a :: xs).foldlM f s = xs.foldlM f t := by
  rw [List.foldlM_cons, h]
  rfl

theorem List.foldlM_append_of_some (h : xs.foldlM f s = some t) :
    (xs ++ ys).foldlM f s = ys.foldlM f t := by
  rw [List.foldlM_append, h]
  rfl

end

namespace Symbology.Json

/-! ## Values as they are spelled -/

/-- A value as a text spells it: a number is a numeral of the grammar of JSON. -/
inductive Script where
  | null
  | bool (value : Bool)
  | number (numeral : Numeral) (wellFormed : numeral.WellFormed) (strict : numeral.strict = true)
  | string (text : String)
  | array (items : List Script)
  | object (members : List (String × Script))

namespace Script

mutual

/-- The text of a spelled value. -/
def chars : Script → List Char
  | .null => "null".toList
  | .bool true => "true".toList
  | .bool false => "false".toList
  | .number n _ _ => n.chars
  | .string s => stringChars s
  | .array [] => ['[', ']']
  | .array (script :: rest) => '[' :: (chars script ++ itemsChars rest)
  | .object [] => ['\x7b', '\x7d']
  | .object ((key, script) :: rest) =>
    '\x7b' :: (stringChars key ++ ':' :: (chars script ++ membersChars rest))

/-- The items behind the first one, each behind a comma, and the end of the array. -/
def itemsChars : List Script → List Char
  | [] => [']']
  | script :: rest => ',' :: (chars script ++ itemsChars rest)

/-- The members behind the first one, each behind a comma, and the end of the object. -/
def membersChars : List (String × Script) → List Char
  | [] => ['\x7d']
  | (key, script) :: rest =>
    ',' :: (stringChars key ++ ':' :: (chars script ++ membersChars rest))

end

mutual

/-- The tokens of a spelled value. -/
def tokens : Script → List Token
  | .null => [.null]
  | .bool b => [.bool b]
  | .number n _ _ => [.number n]
  | .string s => [.string (some s)]
  | .array [] => [.openArray, .closeArray]
  | .array (script :: rest) => .openArray :: (tokens script ++ itemsTokens rest)
  | .object [] => [.openObject, .closeObject]
  | .object ((key, script) :: rest) =>
    .openObject :: .string (some key) :: .colon :: (tokens script ++ membersTokens rest)

/-- The tokens of the items behind the first one, and of the end of the array. -/
def itemsTokens : List Script → List Token
  | [] => [.closeArray]
  | script :: rest => .comma :: (tokens script ++ itemsTokens rest)

/-- The tokens of the members behind the first one, and of the end of the object. -/
def membersTokens : List (String × Script) → List Token
  | [] => [.closeObject]
  | (key, script) :: rest =>
    .comma :: .string (some key) :: .colon :: (tokens script ++ membersTokens rest)

end

end Script

/-! ## Scanning a string -/

/-- An escape is a backslash and a letter, or a backslash, `u` and four digits; both stand for the
character. -/
theorem scan_escapedChar (ts : List Token) (units : List ℕ) (c : Char) :
    (escapedChar c).foldlM Scanner.advance ⟨ts, .string units⟩ =
      some ⟨ts, .string (c.toNat :: units)⟩ := by
  unfold escapedChar
  split
  next h => rcases h with rfl | rfl <;> rfl
  next hplain =>
    rw [not_or] at hplain
    split
    next h => subst h; rfl
    split
    next h => subst h; rfl
    split
    next h => subst h; rfl
    split
    next h => subst h; rfl
    split
    next h => subst h; rfl
    split
    next hcontrol =>
      have hhex : ∀ n < 0x20, ∀ tokens : List Token,
          ['\\', 'u', '0', '0', Nat.digitChar (n / 16), Nat.digitChar (n % 16)].foldlM
            Scanner.advance ⟨tokens, .string units⟩ = some ⟨tokens, .string (n :: units)⟩ := by
        intro n hn tokens
        interval_cases n <;> rfl
      exact hhex c.toNat hcontrol ts
    next hcontrol =>
      simp [Scanner.advance, hplain.1, hplain.2, hcontrol]

theorem scan_escapedChars (ts : List Token) (cs : List Char) (units : List ℕ) :
    (cs.flatMap escapedChar).foldlM Scanner.advance ⟨ts, .string units⟩ =
      some ⟨ts, .string ((cs.map Char.toNat).reverse ++ units)⟩ := by
  induction cs generalizing units with
  | nil => rfl
  | cons c cs ih =>
    rw [List.flatMap_cons, List.foldlM_append_of_some (scan_escapedChar ts units c), ih]
    simp

/-- Characters are no halves of pairs, so their units are joined to the characters again. -/
theorem textOfUnits_toNat (cs : List Char) : textOfUnits (cs.map Char.toNat) = some cs := by
  induction cs with
  | nil => rfl
  | cons c cs ih =>
    have hvalid : c.toNat < 0xd800 ∨ 0xdfff < c.toNat ∧ c.toNat < 0x110000 := c.valid
    have hleading : isLeading c.toNat = false := by
      simp only [isLeading, Bool.and_eq_false_iff, decide_eq_false_iff_not]
      omega
    have htrailing : isTrailing c.toNat = false := by
      simp only [isTrailing, Bool.and_eq_false_iff, decide_eq_false_iff_not]
      omega
    rw [List.map_cons, textOfUnits.eq_def]
    simp [hleading, htrailing, ih, Char.ofNat_toNat]

theorem scan_stringChars (ts : List Token) (s : String) :
    (stringChars s).foldlM Scanner.advance ⟨ts, .nothing⟩ =
      some ⟨.string (some s) :: ts, .nothing⟩ := by
  have hopen : Scanner.advance ⟨ts, .nothing⟩ '"' = some ⟨ts, .string []⟩ := rfl
  have hclose : Scanner.advance ⟨ts, .string ((s.toList.map Char.toNat).reverse ++ [])⟩ '"' =
      some ⟨.string (some s) :: ts, .nothing⟩ := by
    simp [Scanner.advance, textOfUnits_toNat]
  rw [stringChars, List.foldlM_cons_of_some hopen,
    List.foldlM_append_of_some (scan_escapedChars ts s.toList []),
    List.foldlM_cons_of_some hclose]
  rfl

/-! ## Scanning a number -/

/-- A strict numeral begins with a minus sign or a digit. -/
theorem exists_head_chars {n : Numeral} (h : n.WellFormed) (hstrict : n.strict = true) :
    ∃ c rest, n.chars = c :: rest ∧ (c.isDigit || c == '-') = true := by
  simp only [Numeral.strict, Bool.and_eq_true, bne_iff_ne, Bool.not_eq_true',
    List.isEmpty_eq_false_iff] at hstrict
  obtain ⟨⟨⟨⟨hplus, hwhole⟩, _⟩, _⟩, _⟩ := hstrict
  rw [Numeral.chars_eq]
  cases hsign : n.sign with
  | some c =>
    refine ⟨c, _, rfl, ?_⟩
    have hc := h.sign c hsign
    have hne : c ≠ '+' := fun hc' => hplus (by rw [hsign, hc'])
    simpa [Numeral.isSign, hne] using Or.inr hc
  | none =>
    obtain ⟨c, rest, hdigits⟩ := List.exists_cons_of_ne_nil hwhole
    refine ⟨c, _, by rw [hdigits]; rfl, ?_⟩
    simp [h.whole c (by rw [hdigits]; exact List.mem_cons_self)]

theorem start_numeral (ts : List Token) {c : Char} (hc : (c.isDigit || c == '-') = true) :
    Scanner.start ts c = some ⟨ts, .numeral [c]⟩ := by
  rcases Bool.or_eq_true_iff.mp hc with hdigit | hminus
  · obtain ⟨n, hn, rfl⟩ : ∃ n < 10, c = Nat.digitChar n := by
      obtain ⟨hlow, hhigh⟩ := Char.isDigit_iff_toNat.mp hdigit
      have hlow' : 48 ≤ c.toNat := hlow
      have hhigh' : c.toNat ≤ 57 := hhigh
      refine ⟨c.toNat - 48, by omega, Char.toNat_inj.mp ?_⟩
      rw [Nat.toNat_digitChar_of_lt_ten (by omega)]
      omega
    interval_cases n <;> rfl
  · rw [beq_iff_eq] at hminus
    subst hminus
    rfl

theorem scan_numeric (ts : List Token) {cs : List Char}
    (hcs : ∀ c ∈ cs, Numeral.isNumeric c = true) (read : List Char) :
    cs.foldlM Scanner.advance ⟨ts, .numeral read⟩ = some ⟨ts, .numeral (cs.reverse ++ read)⟩ := by
  induction cs generalizing read with
  | nil => rfl
  | cons c cs ih =>
    have hstep : Scanner.advance ⟨ts, .numeral read⟩ c = some ⟨ts, .numeral (c :: read)⟩ := by
      simp [Scanner.advance, hcs c List.mem_cons_self]
    rw [List.foldlM_cons_of_some hstep, ih (fun c hc => hcs c (List.mem_cons_of_mem _ hc))]
    simp

theorem scan_numeral (ts : List Token) {n : Numeral} (h : n.WellFormed)
    (hstrict : n.strict = true) :
    n.chars.foldlM Scanner.advance ⟨ts, .nothing⟩ = some ⟨ts, .numeral n.chars.reverse⟩ := by
  obtain ⟨c, rest, hchars, hc⟩ := exists_head_chars h hstrict
  have hnumeric : ∀ c ∈ rest, Numeral.isNumeric c = true := by
    intro c hc
    refine Numeral.isNumeric_of_mem_chars h ?_
    rw [hchars]
    exact List.mem_cons_of_mem _ hc
  have hstart : Scanner.advance ⟨ts, .nothing⟩ c = some ⟨ts, .numeral [c]⟩ := start_numeral ts hc
  rw [hchars, List.foldlM_cons_of_some hstart, scan_numeric ts hnumeric, List.reverse_cons]

theorem readStrict?_chars {n : Numeral} (h : n.WellFormed) (hstrict : n.strict = true) :
    Numeral.readStrict? n.chars = some n := by
  rw [Numeral.readStrict?, Numeral.read?_chars h]
  exact Option.filter_some_pos hstrict

/-! ## Scanning a value -/

/-- A character that neither a word nor a number holds ends what the scanner is inside of. -/
theorem advance_of_close? {scanner : Scanner} {ts : List Token} (h : scanner.close? = some ts)
    {c : Char} (hlower : c.isLower = false) (hnumeric : Numeral.isNumeric c = false) :
    scanner.advance c = Scanner.start ts c := by
  obtain ⟨tokens, inside⟩ := scanner
  cases inside with
  | nothing =>
    obtain rfl : tokens = ts := Option.some.inj h
    rfl
  | word letters | numeral chars => simp [Scanner.advance, hlower, hnumeric, h]
  | string units | escape units | hex units count value => contradiction

/-- A key, the colon and what follows of the member. -/
theorem scan_member {key : String} {chars rest : List Char} {ts : List Token} {scanner : Scanner}
    (h : chars.foldlM Scanner.advance ⟨.colon :: .string (some key) :: ts, .nothing⟩ =
      some scanner) :
    (stringChars key ++ ':' :: (chars ++ rest)).foldlM Scanner.advance ⟨ts, .nothing⟩ =
      rest.foldlM Scanner.advance scanner := by
  have hcolon : Scanner.advance ⟨.string (some key) :: ts, .nothing⟩ ':' =
      some ⟨.colon :: .string (some key) :: ts, .nothing⟩ := rfl
  rw [List.foldlM_append_of_some (scan_stringChars ts key), List.foldlM_cons_of_some hcolon,
    List.foldlM_append_of_some h]

namespace Script

mutual

/-- Behind the text of a value the scanner has its tokens, or is at the end of the last one. -/
theorem scan_chars : ∀ (script : Script) (ts : List Token), ∃ scanner : Scanner,
    script.chars.foldlM Scanner.advance ⟨ts, .nothing⟩ = some scanner ∧
      scanner.close? = some (script.tokens.reverse ++ ts)
  | .null, ts => ⟨⟨ts, .word "null".toList.reverse⟩, rfl, rfl⟩
  | .bool true, ts => ⟨⟨ts, .word "true".toList.reverse⟩, rfl, rfl⟩
  | .bool false, ts => ⟨⟨ts, .word "false".toList.reverse⟩, rfl, rfl⟩
  | .number n hn hstrict, ts => by
    refine ⟨⟨ts, .numeral n.chars.reverse⟩, scan_numeral ts hn hstrict, ?_⟩
    simp [Scanner.close?, readStrict?_chars hn hstrict, tokens]
  | .string s, ts => ⟨⟨.string (some s) :: ts, .nothing⟩, scan_stringChars ts s, rfl⟩
  | .array [], ts => ⟨⟨.closeArray :: .openArray :: ts, .nothing⟩, rfl, rfl⟩
  | .array (script :: rest), ts => by
    obtain ⟨scanner, hscan, hclose⟩ := scan_chars script (.openArray :: ts)
    have hopen : Scanner.advance ⟨ts, .nothing⟩ '[' = some ⟨.openArray :: ts, .nothing⟩ := rfl
    refine ⟨⟨(array (script :: rest)).tokens.reverse ++ ts, .nothing⟩, ?_, rfl⟩
    rw [chars, List.foldlM_cons_of_some hopen, List.foldlM_append_of_some hscan,
      scan_itemsChars rest hclose]
    simp [tokens]
  | .object [], ts => ⟨⟨.closeObject :: .openObject :: ts, .nothing⟩, rfl, rfl⟩
  | .object ((key, script) :: rest), ts => by
    obtain ⟨scanner, hscan, hclose⟩ :=
      scan_chars script (.colon :: .string (some key) :: .openObject :: ts)
    have hopen : Scanner.advance ⟨ts, .nothing⟩ '\x7b' = some ⟨.openObject :: ts, .nothing⟩ := rfl
    refine ⟨⟨(object ((key, script) :: rest)).tokens.reverse ++ ts, .nothing⟩, ?_, rfl⟩
    rw [chars, List.foldlM_cons_of_some hopen, scan_member hscan, scan_membersChars rest hclose]
    simp [tokens]

/-- The items behind the first one, and the end of the array. -/
theorem scan_itemsChars : ∀ (items : List Script) {scanner : Scanner} {ts : List Token},
    scanner.close? = some ts → (itemsChars items).foldlM Scanner.advance scanner =
      some ⟨(itemsTokens items).reverse ++ ts, .nothing⟩
  | [], scanner, ts, h => by
    have hend : scanner.advance ']' = some ⟨.closeArray :: ts, .nothing⟩ :=
      advance_of_close? h rfl rfl
    rw [itemsChars, List.foldlM_cons_of_some hend]
    rfl
  | script :: rest, scanner, ts, h => by
    obtain ⟨scanner', hscan, hclose⟩ := scan_chars script (.comma :: ts)
    have hcomma : scanner.advance ',' = some ⟨.comma :: ts, .nothing⟩ :=
      advance_of_close? h rfl rfl
    rw [itemsChars, List.foldlM_cons_of_some hcomma, List.foldlM_append_of_some hscan,
      scan_itemsChars rest hclose]
    simp [itemsTokens]

/-- The members behind the first one, and the end of the object. -/
theorem scan_membersChars : ∀ (members : List (String × Script)) {scanner : Scanner}
    {ts : List Token}, scanner.close? = some ts →
      (membersChars members).foldlM Scanner.advance scanner =
        some ⟨(membersTokens members).reverse ++ ts, .nothing⟩
  | [], scanner, ts, h => by
    have hend : scanner.advance '\x7d' = some ⟨.closeObject :: ts, .nothing⟩ :=
      advance_of_close? h rfl rfl
    rw [membersChars, List.foldlM_cons_of_some hend]
    rfl
  | (key, script) :: rest, scanner, ts, h => by
    obtain ⟨scanner', hscan, hclose⟩ :=
      scan_chars script (.colon :: .string (some key) :: .comma :: ts)
    have hcomma : scanner.advance ',' = some ⟨.comma :: ts, .nothing⟩ :=
      advance_of_close? h rfl rfl
    rw [membersChars, List.foldlM_cons_of_some hcomma, scan_member hscan,
      scan_membersChars rest hclose]
    simp [membersTokens]

end

/-- **The text of a value is cut into its tokens.** -/
theorem tokens?_chars (script : Script) : tokens? script.chars = some script.tokens := by
  obtain ⟨scanner, hscan, hclose⟩ := scan_chars script []
  rw [tokens?, hscan, Option.bind_some, hclose]
  simp

end Script

end Symbology.Json
