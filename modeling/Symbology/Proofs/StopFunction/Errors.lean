import Symbology.Proofs.Number.Numeral
import Symbology.Proofs.StopFunction.Reading

set_option autoImplicit false

/-! # What the errors of reading a stop function say

A list of stops is refused for the first stop that is not as it should be (`FirstFailure`), and the
error counts the stops before it. The lists that are read are the stops as they are written, the
pairs in them, and the stops of each group; an error of anything else names a member of the function
(`Origin`). The keys of errors at different parts are different texts (`stopKey_inj`). -/

namespace Symbology.StopFunction

variable {spec : PropertySpec} {settings : Settings} {e : ReadError}

/-! ## The first item that is not as it should be -/

/-- The item at position `n` is the first one without the property. -/
structure FirstFailure {α : Type} (P : α → Prop) (items : List α) (n : Nat) (item : α) : Prop where
  item_eq : items[n]? = some item
  failure : ¬P item
  before : ∀ other ∈ items.take n, P other

theorem FirstFailure.here {α : Type} {P : α → Prop} {item : α} (h : ¬P item) (rest : List α) :
    FirstFailure P (item :: rest) 0 item :=
  ⟨rfl, h, by simp⟩

theorem FirstFailure.there {α : Type} {P : α → Prop} {first item : α} {rest : List α} {n : Nat}
    (hfirst : P first) (h : FirstFailure P rest n item) :
    FirstFailure P (first :: rest) (n + 1) item :=
  ⟨h.item_eq, h.failure, by simpa [hfirst] using h.before⟩

/-- The first item is the first failure, or it is as it should be. -/
theorem FirstFailure.eq_zero_iff {α : Type} {P : α → Prop} {items : List α} {n : Nat} {item : α}
    (h : FirstFailure P items n item) : n = 0 ↔ ¬∀ first ∈ items.head?, P first := by
  cases items with
  | nil => exact absurd h.item_eq (by simp)
  | cons first rest =>
    cases n with
    | zero =>
      obtain rfl : first = item := by simpa using h.item_eq
      simpa using h.failure
    | succ n => simpa using h.before first List.mem_cons_self

theorem FirstFailure.append {α : Type} {P : α → Prop} {items : List α} {n : Nat} {item : α}
    (h : FirstFailure P items n item) (others : List α) :
    FirstFailure P (items ++ others) n item := by
  obtain ⟨hn, _⟩ := List.getElem?_eq_some_iff.mp h.item_eq
  refine ⟨?_, h.failure, ?_⟩
  · rw [List.getElem?_append_left hn, h.item_eq]
  · rw [List.take_append_of_le_length hn.le]
    exact h.before

theorem FirstFailure.append_left {α : Type} {P : α → Prop} {before items : List α} {n : Nat}
    {item : α} (hbefore : ∀ other ∈ before, P other) (h : FirstFailure P items n item) :
    FirstFailure P (before ++ items) (before.length + n) item := by
  induction before with
  | nil => simpa using h
  | cons first before ih =>
    obtain ⟨hfirst, hbefore⟩ := List.forall_mem_cons.mp hbefore
    rw [List.length_cons, Nat.add_right_comm]
    exact (ih hbefore).there hfirst

/-- The first failure in the first part that has one is the first failure in all parts. -/
theorem FirstFailure.flatten {α : Type} {P : α → Prop} {parts : List (List α)} {k n : Nat}
    {part : List α} {item : α} (hpart : FirstFailure (fun part => ∀ item ∈ part, P item) parts k part)
    (hitem : FirstFailure P part n item) :
    FirstFailure P parts.flatten ((parts.take k).flatten.length + n) item := by
  induction parts generalizing k with
  | nil => exact absurd hpart.item_eq (by simp)
  | cons first rest ih =>
    cases k with
    | zero =>
      obtain rfl : first = part := by simpa using hpart.item_eq
      simpa using hitem.append rest.flatten
    | succ k =>
      obtain ⟨hfirst, hbefore⟩ := List.forall_mem_cons.mp hpart.before
      have hrest := ih ⟨hpart.item_eq, hpart.failure, hbefore⟩
      rw [List.take_succ_cons, List.flatten_cons, List.flatten_cons, List.length_append,
        Nat.add_assoc]
      exact hrest.append_left hfirst

/-- The first failure in one of two related lists is that in the other one. -/
theorem FirstFailure.of_forall₂ {α β : Type} {R : α → β → Prop} {P : α → Prop} {Q : β → Prop}
    {as : List α} {bs : List β} {n : Nat} {b : β} (h : FirstFailure Q bs n b)
    (hrelated : List.Forall₂ R as bs) (hiff : ∀ a b, R a b → (P a ↔ Q b)) :
    ∃ a, FirstFailure P as n a ∧ R a b := by
  induction hrelated generalizing n with
  | nil => exact absurd h.item_eq (by simp)
  | @cons a b' as bs hab _ ih =>
    cases n with
    | zero =>
      obtain rfl : b' = b := by simpa using h.item_eq
      exact ⟨a, .here (mt (hiff a b' hab).mp h.failure) as, hab⟩
    | succ n =>
      obtain ⟨hfirst, hbefore⟩ := List.forall_mem_cons.mp h.before
      obtain ⟨a', ha', hrelated⟩ := ih ⟨h.item_eq, h.failure, hbefore⟩
      exact ⟨a', ha'.there ((hiff a b' hab).mpr hfirst), hrelated⟩

/-! ## Lists of stops -/

/-- The value is an array of an input and an output. -/
def IsPair (json : Json) : Prop :=
  ∃ input output, json = .array [input, output]

theorem pairs_eq_error {index : Nat} {items : List Json} (h : pairs index items = .error e) :
    ∃ n item, FirstFailure IsPair items n item ∧ e = ⟨.stop (index + n), .notPair⟩ := by
  fun_induction pairs index items with
  | case1 => contradiction
  | case2 index input output rest ih =>
    obtain ⟨n, item, hfirst, rfl⟩ := ih (Except.map_eq_error_iff.mp h)
    exact ⟨n + 1, item, hfirst.there ⟨input, output, rfl⟩, by rw [Nat.add_right_comm, Nat.add_assoc]⟩
  | case3 index item rest hpair =>
    obtain rfl := Except.error.inj h
    have hfailure : ¬IsPair item := by
      rintro ⟨input, output, heq⟩
      exact hpair input output heq
    exact ⟨0, item, .here hfailure rest, rfl⟩

/-- The input is a number. -/
def IsNumberStop (stop : Json × Json) : Prop :=
  ∃ n, stop.1 = .number n

theorem numericInput_eq_error {index : Nat} {input : Json} (h : numericInput index input = .error e) :
    (¬∃ n, input = .number n) ∧ e = ⟨.input index, .inputKind input⟩ := by
  unfold numericInput at h
  split at h
  · contradiction
  next hnumber =>
    obtain rfl := Except.error.inj h
    exact ⟨not_exists.mpr hnumber, rfl⟩

theorem numericStops_eq_error {index : Nat} {stops : List (Json × Json)}
    (h : numericStops index stops = .error e) :
    ∃ n stop, FirstFailure IsNumberStop stops n stop ∧
      e = ⟨.input (index + n), .inputKind stop.1⟩ := by
  induction stops generalizing index with
  | nil => contradiction
  | cons stop rest ih =>
    simp only [numericStops, Except.seq_eq_error_iff, Except.pure_ne_error, and_false,
      exists_false, or_false] at h
    rcases h with hinput | ⟨n, hinput, hrest⟩
    · obtain ⟨hnumber, rfl⟩ := numericInput_eq_error hinput
      have hfailure : ¬IsNumberStop stop := hnumber
      exact ⟨0, stop, .here hfailure rest, rfl⟩
    · obtain ⟨n', other, hfirst, rfl⟩ := ih hrest
      have hnumber : IsNumberStop stop := ⟨n, numericInput_eq_ok_iff.mp hinput⟩
      exact ⟨n' + 1, other, hfirst.there hnumber, by rw [Nat.add_right_comm, Nat.add_assoc]⟩

/-- A body is refused for the first of its stops whose input is no number. -/
theorem body_eq_error {stops : List (Json × Json)} (h : settings.body stops = .error e) :
    ∃ n stop, FirstFailure IsNumberStop stops n stop ∧ e = ⟨.input n, .inputKind stop.1⟩ := by
  unfold Settings.body at h
  split at h
  · contradiction
  · simpa using numericStops_eq_error (Except.map_eq_error_iff.mp h)

/-- A group is refused after all groups before it were read. -/
theorem groups_eq_error {runs : List (Json.Number × List (Json × Json))}
    (h : groups settings runs = .error e) :
    ∃ n run, FirstFailure (fun run => ∃ body, settings.body run.2 = .ok body) runs n run ∧
      settings.body run.2 = .error e := by
  induction runs with
  | nil => contradiction
  | cons run rest ih =>
    simp only [groups, Except.seq_eq_error_iff, Except.pure_ne_error, and_false, exists_false,
      or_false] at h
    rcases h with hbody | ⟨body, hbody, hrest⟩
    · refine ⟨0, run, .here ?_ rest, hbody⟩
      rw [hbody]
      simp
    · obtain ⟨n, other, hfirst, herror⟩ := ih hrest
      exact ⟨n + 1, other, hfirst.there ⟨body, hbody⟩, herror⟩

/-! ## Inputs at fault -/

/-- The input of a stop has the fault. In a list of stops over both the zoom level and a property
the input lacks one of them, or one of them is no number. What is no number is quoted. -/
inductive Offends : (composite : Bool) → Json → Fault → Prop
  | input {input : Json} (no_number : input.number? = none) :
      Offends false input (.inputKind input)
  | incomplete {input : Json} (lacks : input.get? "zoom" = none ∨ input.get? "value" = none) :
      Offends true input .compositeInput
  | zoom {input zoom : Json} (member : input.get? "zoom" = some zoom)
      (no_number : zoom.number? = none) : Offends true input (.inputKind zoom)
  | value {input value : Json} (member : input.get? "value" = some value)
      (no_number : value.number? = none) : Offends true input (.inputKind value)

theorem number?_eq_none {json : Json} (h : ¬∃ n, json = .number n) : json.number? = none := by
  cases json with
  | number n => exact absurd ⟨n, rfl⟩ h
  | _ => rfl

theorem compositeStops_eq_error {index : Nat} {stops : List (Json × Json)}
    (h : compositeStops index stops = .error e) :
    ∃ n stop, FirstFailure (fun stop => ∃ read, IsCompositeStop stop read) stops n stop ∧
      e.part = .input (index + n) ∧ Offends true stop.1 e.fault := by
  induction stops generalizing index with
  | nil => contradiction
  | cons stop rest ih =>
    obtain ⟨input, output⟩ := stop
    rw [compositeStops] at h
    split at h
    next zoom value hzoom hvalue =>
      simp only [Except.seq_eq_error_iff, Except.pure_ne_error, and_false, exists_false,
        or_false] at h
      rcases h with hinput | ⟨n, hinput, hrest⟩
      · obtain ⟨hnumber, rfl⟩ := numericInput_eq_error hinput
        refine ⟨0, _, .here ?_ rest, rfl, .zoom hzoom (number?_eq_none hnumber)⟩
        rintro ⟨read, hread⟩
        exact hnumber ⟨read.1, Option.some.inj (hzoom.symm.trans hread.zoom)⟩
      · obtain rfl := numericInput_eq_ok_iff.mp hinput
        obtain ⟨n', other, hfirst, hpart, hoffends⟩ := ih hrest
        refine ⟨n' + 1, other, hfirst.there ⟨(n, value, output), hzoom, hvalue, rfl⟩, ?_, hoffends⟩
        rw [hpart, Nat.add_right_comm, Nat.add_assoc]
    next hlacks =>
      obtain rfl := Except.error.inj h
      refine ⟨0, _, .here ?_ rest, rfl, .incomplete ?_⟩
      · rintro ⟨read, hread⟩
        exact hlacks _ _ hread.zoom hread.value
      · cases hzoom : input.get? "zoom" with
        | none => exact Or.inl rfl
        | some zoom => exact Or.inr (Option.eq_none_iff_forall_ne_some.mpr (hlacks zoom · hzoom))

/-! ## The reader -/

/-- The part is the whole function or a member with a plain key. -/
def Part.isNamed : Part → Bool
  | .whole => true
  | .member key => !key.toList.contains '['
  | _ => false

/-- Where an error of stops that are pairs comes from. -/
theorem ofStops_eq_error {found : List (Json × Json)} {name : Option String}
    (h : ofStops spec settings found name = .error e) :
    e.part.isNamed = true ∨
      (isComposite found = false ∧ numericStops 0 found = .error e) ∨
      isComposite found = true ∧ (compositeStops 0 found = .error e ∨
        ∃ stops, compositeStops 0 found = .ok stops ∧ groups settings (runs stops) = .error e) := by
  cases hcomposite : isComposite found with
  | true =>
    cases name with
    | none =>
      simp only [ofStops, hcomposite, if_true] at h
      obtain rfl := Except.error.inj h
      exact Or.inl rfl
    | some property =>
      simp only [ofStops, hcomposite, if_true, Except.seq_eq_error_iff, Except.pure_ne_error,
        and_false, exists_false, or_false] at h
      exact Or.inr (Or.inr ⟨rfl, h⟩)
  | false =>
    cases name with
    | none =>
      simp only [ofStops, hcomposite, Bool.false_eq_true, if_false] at h
      split at h
      · obtain rfl := Except.error.inj h
        exact Or.inl rfl
      · exact Or.inr (Or.inl ⟨rfl, Except.map_eq_error_iff.mp h⟩)
    | some property =>
      simp only [ofStops, hcomposite, Bool.false_eq_true, if_false, Settings.body] at h
      split at h
      · contradiction
      · exact Or.inr (Or.inl ⟨rfl, Except.map_eq_error_iff.mp (Except.map_eq_error_iff.mp h)⟩)

/-- Where an error of reading a function comes from: from the function itself or a member, from an
item of the stops that is no pair, or from stops that are pairs. -/
inductive Origin (json : Json) (spec : PropertySpec) (e : ReadError) : Prop
  | named (named : e.part.isNamed = true)
  | item {items : List Json} {n : Nat} {item : Json}
      (written : json.get? "stops" = some (.array items)) (first : FirstFailure IsPair items n item)
      (error : e = ⟨.stop n, .notPair⟩)
  | stops {found : List (Json × Json)} {settings : Settings} {name : Option String}
      (written : json.get? "stops" = some (writtenStops found))
      (error : ofStops spec settings found name = .error e)

theorem isNamed_of_functionType {written : Option Json} (h : functionType spec written = .error e) :
    e.part.isNamed = true := by
  unfold functionType at h
  split at h
  · contradiction
  · split at h
    · contradiction
    · obtain rfl := Except.error.inj h
      rfl

theorem isNamed_of_propertyName {written : Option Json} (h : propertyName written = .error e) :
    e.part.isNamed = true := by
  unfold propertyName at h
  split at h
  · contradiction
  · contradiction
  · obtain rfl := Except.error.inj h
    rfl

theorem isNamed_of_base {written : Option Json} (h : base written = .error e) :
    e.part.isNamed = true := by
  unfold base at h
  split at h
  · contradiction
  · contradiction
  · obtain rfl := Except.error.inj h
    rfl

/-- An error of the member `stops` is about all of it, or about an item that is no pair. -/
theorem stops_eq_error {written : Option Json} (h : stops written = .error e) :
    e.part.isNamed = true ∨ ∃ items n item, written = some (.array items) ∧
      FirstFailure IsPair items n item ∧ e = ⟨.stop n, .notPair⟩ := by
  unfold stops at h
  split at h
  · obtain rfl := Except.error.inj h
    exact Or.inl rfl
  · obtain rfl := Except.error.inj h
    exact Or.inl rfl
  next items _ =>
    obtain ⟨n, item, hfirst, rfl⟩ := pairs_eq_error h
    exact Or.inr ⟨items, n, item, rfl, hfirst, by rw [Nat.zero_add]⟩
  · obtain rfl := Except.error.inj h
    exact Or.inl rfl

/-- **Every error of reading has an origin.** -/
theorem origin_of_error {json : Json} (h : read json spec = .error e) : Origin json spec e := by
  unfold read at h
  split at h
  next members =>
    simp only [ofMembers, Except.seq_eq_error_iff] at h
    rcases h with htype | ⟨type, htype, hname | ⟨name, hname, h⟩⟩
    · exact .named (isNamed_of_functionType htype)
    · exact .named (isNamed_of_propertyName hname)
    split at h
    · obtain rfl := Except.error.inj h
      exact .named rfl
    split at h
    · split at h
      · contradiction
      · obtain rfl := Except.error.inj h
        exact .named rfl
    simp only [Except.seq_eq_error_iff] at h
    rcases h with hstops | ⟨found, hfound, hbase | ⟨base', hbase, h⟩⟩
    · rcases stops_eq_error hstops with hnamed | ⟨items, n, item, hwritten, hfirst, herror⟩
      · exact .named hnamed
      · exact .item hwritten hfirst herror
    · exact .named (isNamed_of_base hbase)
    · exact .stops (stops_eq_ok_iff.mp hfound).2 h
  next =>
    obtain rfl := Except.error.inj h
    exact .named rfl

/-! ## Keys -/

theorem toDigits_injective {n m : Nat} (h : Nat.toDigits 10 n = Nat.toDigits 10 m) : n = m := by
  rw [← Nat.ofDigitChars_ten_toDigits (n := n), h, Nat.ofDigitChars_ten_toDigits]

/-- A key of a stop tells the position and what follows it. -/
theorem stopKey_inj {n m : Nat} {ending ending' : String}
    (hending : ∀ c ∈ ending.toList.head?, c.isDigit = false)
    (hending' : ∀ c ∈ ending'.toList.head?, c.isDigit = false)
    (h : "$.stops[" ++ toString n ++ ending = "$.stops[" ++ toString m ++ ending') :
    n = m ∧ ending = ending' := by
  have hdigits (k : Nat) : ∀ c ∈ Nat.toDigits 10 k, c.isDigit = true := fun _ =>
    Numeral.isDigit_of_mem_toDigits
  have hlists := congrArg String.toList h
  simp only [String.toList_append, Nat.toString_eq_ofList_toDigits, String.toList_ofList,
    List.append_assoc, List.append_cancel_left_eq] at hlists
  -- the digits end where the ending begins
  obtain ⟨htake, hdrop⟩ := Numeral.span_digits (hdigits n) hending
  obtain ⟨htake', hdrop'⟩ := Numeral.span_digits (hdigits m) hending'
  rw [hlists] at htake hdrop
  exact ⟨toDigits_injective (htake.symm.trans htake'),
    String.toList_inj.mp (hdrop.symm.trans hdrop')⟩

/-- The key of a named part is not the key of a stop. -/
theorem Part.text_ne_of_isNamed {part : Part} (h : part.isNamed = true) (i : Nat)
    (ending : String) : part.text ≠ "$.stops[" ++ toString i ++ ending := by
  have hbracket : '[' ∉ part.text.toList := by
    cases part with
    | whole => decide
    | member key =>
      have hkey : '[' ∉ key.toList := by simpa [isNamed] using h
      simp [text, hkey]
    | _ => contradiction
  rintro heq
  rw [heq] at hbracket
  simp at hbracket

theorem Part.text_stop_eq_iff {n i : Nat} :
    (Part.stop n).text = "$.stops[" ++ toString i ++ "]" ↔ n = i :=
  ⟨fun h => (stopKey_inj (by simp) (by simp) h).1, fun h => h ▸ rfl⟩

theorem Part.text_input_eq_iff {n i : Nat} :
    (Part.input n).text = "$.stops[" ++ toString i ++ "][0]" ↔ n = i :=
  ⟨fun h => (stopKey_inj (by simp) (by simp) h).1, fun h => h ▸ rfl⟩

theorem Part.text_stop_ne {n i : Nat} :
    (Part.stop n).text ≠ "$.stops[" ++ toString i ++ "][0]" :=
  fun h => absurd (stopKey_inj (by simp) (by simp) h).2 (by decide)

theorem Part.text_input_ne {n i : Nat} :
    (Part.input n).text ≠ "$.stops[" ++ toString i ++ "]" :=
  fun h => absurd (stopKey_inj (by simp) (by simp) h).2 (by decide)

end Symbology.StopFunction
