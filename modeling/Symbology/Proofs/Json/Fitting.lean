import Symbology.PropertySpec.Reader
import Symbology.Proofs.Json.Reading
import Symbology.Proofs.Number.Faithful

set_option autoImplicit false

/-! # Documents that a text can hold

The numbers of a document that is read from a text fit, because reading a numeral gives a number
that fits and the builder only puts parts together (`fits_of_read?`). So a value that is read is
well formed and has its members in order (`Document.Fits.wellFormed_sorted`), and its numbers are
finite (`Number.Fits.isFinite_toFloat`). -/

namespace Symbology

namespace Json

/-! ## Numbers -/

/-- A numeral stands for a number that fits. -/
theorem Number.fits_of_ofNumeral? {numeral : Numeral} {n : Number}
    (h : ofNumeral? numeral = some n) : n.Fits := by
  unfold ofNumeral? at h
  dsimp only at h
  split at h
  next hunsigned =>
    obtain rfl := Option.some.inj h
    simp only [Bool.and_eq_true, decide_eq_true_eq] at hunsigned
    exact ⟨by omega, by omega⟩
  · split at h
    next hsigned =>
      obtain rfl := Option.some.inj h
      simp only [Bool.and_eq_true, decide_eq_true_eq] at hsigned
      exact ⟨by omega, by omega⟩
    · split at h
      · obtain rfl := Option.some.inj h
        trivial
      · contradiction

/-- A number that fits is finite. -/
theorem Number.Fits.isFinite_toFloat {n : Number} (h : n.Fits) : n.toFloat.isFinite = true := by
  cases n with
  | integer n =>
    obtain ⟨hlow, hhigh⟩ := h
    exact Symbology.Number.isFinite_ofInt (by omega)
  | float x finite => exact finite

/-! ## Documents -/

/-- All numbers in the document fit. -/
inductive Document.Fits : Document → Prop
  | null : Fits .null
  | bool (b : Bool) : Fits (.bool b)
  | number {value : Option Number} (fits : ∀ n ∈ value, n.Fits) : Fits (.number value)
  | string (s : Option String) : Fits (.string s)
  | array {items : List Document} (items_fit : ∀ item ∈ items, Fits item) : Fits (.array items)
  | object {members : List (Option String × Document)}
      (members_fit : ∀ member ∈ members, Fits member.2) : Fits (.object members)

theorem itemsToDocuments_eq_map (items : List Json) :
    itemsToDocuments items = items.map toDocument := by
  induction items with
  | nil => rfl
  | cons json rest ih => rw [itemsToDocuments, ih, List.map_cons]

theorem membersToDocuments_eq_map (members : List (String × Json)) :
    membersToDocuments members =
      members.map (fun member => (some member.1, member.2.toDocument)) := by
  induction members with
  | nil => rfl
  | cons member rest ih => rw [membersToDocuments, ih, List.map_cons]

/-- A well-formed value is a document that fits. -/
theorem WellFormed.fits_toDocument {json : Json} (h : json.WellFormed) : json.toDocument.Fits := by
  induction h with
  | null => exact .null
  | bool b => exact .bool b
  | number fits =>
    refine .number ?_
    rintro n ⟨⟩
    exact fits
  | string s => exact .string _
  | array _ ih =>
    rw [toDocument, itemsToDocuments_eq_map]
    refine .array ?_
    intro document hdocument
    obtain ⟨item, hitem, rfl⟩ := List.mem_map.mp hdocument
    exact ih item hitem
  | object _ _ ih =>
    rw [toDocument, membersToDocuments_eq_map]
    refine .object ?_
    intro pair hpair
    obtain ⟨member, hmember, rfl⟩ := List.mem_map.mp hpair
    exact ih member hmember

/-! ## The builder -/

/-- The parts that a frame has read fit. -/
def Builder.Frame.Fits : Builder.Frame → Prop
  | .array items => ∀ item ∈ items, item.Fits
  | .object members _ => ∀ member ∈ members, member.2.Fits

/-- All parts that a builder has read fit. -/
def Builder.Fits : Builder → Prop
  | .value frames | .firstItem frames | .firstKey frames => ∀ frame ∈ frames, frame.Fits
  | .key frames members | .colon frames members _ =>
    (∀ frame ∈ frames, frame.Fits) ∧ ∀ member ∈ members, member.2.Fits
  | .complete frames document => (∀ frame ∈ frames, frame.Fits) ∧ document.Fits

theorem Builder.fits_acceptValue {frames : List Frame} {token : Token} {next : Builder}
    (hframes : ∀ frame ∈ frames, frame.Fits) (h : acceptValue frames token = some next) :
    next.Fits := by
  cases token with
  | null =>
    obtain rfl := Option.some.inj h
    exact ⟨hframes, .null⟩
  | bool b =>
    obtain rfl := Option.some.inj h
    exact ⟨hframes, .bool b⟩
  | number numeral =>
    obtain rfl := Option.some.inj h
    exact ⟨hframes, .number (fun _ hn => Number.fits_of_ofNumeral? hn)⟩
  | string s =>
    obtain rfl := Option.some.inj h
    exact ⟨hframes, .string s⟩
  | openArray | openObject =>
    obtain rfl := Option.some.inj h
    exact hframes
  | _ => contradiction

theorem Builder.fits_acceptAfter {document : Document} {frames : List Frame} {token : Token}
    {next : Builder} (hframes : ∀ frame ∈ frames, frame.Fits) (hdocument : document.Fits)
    (h : acceptAfter document frames token = some next) : next.Fits := by
  unfold acceptAfter at h
  split at h
  next items frames =>
    obtain rfl := Option.some.inj h
    obtain ⟨hitems, hrest⟩ := List.forall_mem_cons.mp hframes
    exact List.forall_mem_cons.mpr ⟨List.forall_mem_cons.mpr ⟨hdocument, hitems⟩, hrest⟩
  next items frames =>
    obtain rfl := Option.some.inj h
    obtain ⟨hitems, hrest⟩ := List.forall_mem_cons.mp hframes
    refine ⟨hrest, .array (fun item hitem => ?_)⟩
    exact List.forall_mem_cons.mpr ⟨hdocument, hitems⟩ item (List.mem_reverse.mp hitem)
  next members name frames =>
    obtain rfl := Option.some.inj h
    obtain ⟨hmembers, hrest⟩ := List.forall_mem_cons.mp hframes
    have hread : ∀ member ∈ (name, document) :: members, member.2.Fits :=
      List.forall_mem_cons.mpr ⟨hdocument, hmembers⟩
    exact ⟨hrest, hread⟩
  next members name frames =>
    obtain rfl := Option.some.inj h
    obtain ⟨hmembers, hrest⟩ := List.forall_mem_cons.mp hframes
    have hread : ∀ member ∈ (name, document) :: members, member.2.Fits :=
      List.forall_mem_cons.mpr ⟨hdocument, hmembers⟩
    exact ⟨hrest, .object (fun member hmember => hread member (List.mem_reverse.mp hmember))⟩
  · contradiction

/-- A step of the builder keeps that all parts fit. -/
theorem Builder.Fits.accept {builder next : Builder} {token : Token} (hfits : builder.Fits)
    (h : builder.accept token = some next) : next.Fits := by
  unfold Builder.accept at h
  split at h
  next frames => exact fits_acceptValue hfits h
  next frames =>
    obtain rfl := Option.some.inj h
    exact ⟨hfits, .array (by simp)⟩
  next frames _ =>
    have hopen : (Frame.array []).Fits := by simp [Frame.Fits]
    exact fits_acceptValue (List.forall_mem_cons.mpr ⟨hopen, hfits⟩) h
  next frames =>
    obtain rfl := Option.some.inj h
    exact ⟨hfits, .object (by simp)⟩
  next frames name =>
    obtain rfl := Option.some.inj h
    exact ⟨hfits, by simp⟩
  next frames members name =>
    obtain rfl := Option.some.inj h
    exact hfits
  next frames members name =>
    obtain rfl := Option.some.inj h
    exact List.forall_mem_cons.mpr ⟨hfits.2, hfits.1⟩
  next frames document => exact fits_acceptAfter hfits.1 hfits.2 h
  · contradiction

theorem Builder.Fits.foldlM {tokens : List Token} {builder next : Builder} (hfits : builder.Fits)
    (h : tokens.foldlM Builder.accept builder = some next) : next.Fits := by
  induction tokens generalizing builder with
  | nil =>
    obtain rfl := Option.some.inj h
    exact hfits
  | cons token tokens ih =>
    rw [List.foldlM_cons] at h
    obtain ⟨middle, hstep, hrest⟩ := Option.bind_eq_some_iff.mp h
    exact ih (hfits.accept hstep) hrest

/-- **The numbers of a document that is read from a text fit.** -/
theorem fits_of_read? {text : String} {document : Document}
    (h : Document.read? text = some document) : document.Fits := by
  obtain ⟨tokens, _, htokens⟩ := Option.bind_eq_some_iff.mp h
  obtain ⟨builder, hbuild, hcomplete⟩ := Option.bind_eq_some_iff.mp htokens
  have hstart : (Builder.value []).Fits := by simp [Builder.Fits]
  have hfits := hstart.foldlM hbuild
  unfold Builder.document? at hcomplete
  split at hcomplete
  · obtain rfl := Option.some.inj hcomplete
    exact hfits.2
  · contradiction

/-! ## Values of documents -/

theorem Document.forall₂_of_itemsJson? {items : List Document} {jsons : List Json}
    (h : itemsJson? items = some jsons) :
    List.Forall₂ (fun item json => item.json? = some json) items jsons := by
  induction items generalizing jsons with
  | nil =>
    obtain rfl := Option.some.inj h
    exact .nil
  | cons item rest ih =>
    rw [itemsJson?] at h
    split at h
    next json jsons hjson hjsons =>
      obtain rfl := Option.some.inj h
      exact .cons hjson (ih hjsons)
    · contradiction

theorem Document.forall₂_of_membersJson? {members : List (Option String × Document)}
    {pairs : List (String × Json)} (h : membersJson? members = some pairs) :
    List.Forall₂ (fun member pair => member.1 = some pair.1 ∧ member.2.json? = some pair.2)
      members pairs := by
  induction members generalizing pairs with
  | nil =>
    obtain rfl := Option.some.inj h
    exact .nil
  | cons member rest ih =>
    unfold membersJson? at h
    split at h
    next key json pairs hkey hjson hpairs =>
      obtain rfl := Option.some.inj h
      exact .cons ⟨hkey, hjson⟩ (ih hpairs)
    · contradiction

/-- The value is well formed, and its members are in order. -/
theorem Document.Fits.wellFormed_sorted {document : Document} (hfits : document.Fits) {json : Json}
    (h : document.json? = some json) : json.WellFormed ∧ json.sorted = json := by
  induction hfits generalizing json with
  | null =>
    obtain rfl := Option.some.inj h
    exact ⟨.null, rfl⟩
  | bool b =>
    obtain rfl := Option.some.inj h
    exact ⟨.bool b, rfl⟩
  | number fits =>
    obtain ⟨n, hn, rfl⟩ := Option.map_eq_some_iff.mp h
    exact ⟨.number (fits n hn), rfl⟩
  | string s =>
    obtain ⟨s, _, rfl⟩ := Option.map_eq_some_iff.mp h
    exact ⟨.string s, rfl⟩
  | @array items _ ih =>
    obtain ⟨jsons, hjsons, rfl⟩ := Option.map_eq_some_iff.mp h
    have hall : ∀ json ∈ jsons, json.WellFormed ∧ json.sorted = json := by
      intro json hjson
      obtain ⟨item, hitem, hvalue⟩ :=
        (forall₂_of_itemsJson? hjsons).exists_of_mem_right hjson
      exact ih item hitem hvalue
    refine ⟨.array (fun json hjson => (hall json hjson).1), ?_⟩
    rw [Json.sorted, sortedItems_eq_map, List.map_congr_left (fun json hjson => (hall json hjson).2),
      List.map_id']
  | @object members _ ih =>
    obtain ⟨pairs, hpairs, rfl⟩ := Option.map_eq_some_iff.mp h
    have hascending := Members.ascending_ofList pairs
    have hall : ∀ pair ∈ Members.ofList pairs, pair.2.WellFormed ∧ pair.2.sorted = pair.2 := by
      intro pair hpair
      obtain ⟨member, hmember, _, hvalue⟩ :=
        (forall₂_of_membersJson? hpairs).exists_of_mem_right (Members.mem_ofList hpair)
      exact ih member hmember hvalue
    refine ⟨.object (Members.nodup_of_ascending hascending) (fun pair hpair => (hall pair hpair).1),
      ?_⟩
    have hsorted : ∀ pair ∈ Members.ofList pairs, (pair.1, pair.2.sorted) = pair :=
      fun pair hpair => Prod.ext rfl (hall pair hpair).2
    rw [Json.sorted, sortedMembers_eq_map, List.map_congr_left hsorted, List.map_id',
      Members.ofList_of_ascending hascending]

end Json

end Symbology
