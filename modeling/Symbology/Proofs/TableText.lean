import Symbology.PropertyTable
import Symbology.Proofs.Json.Fitting

set_option autoImplicit false

/-! # Tables are read as they are written

Not every specification has a text: a bound that is not finite and a default of `null` are read as
absent, and a default with its members out of order is read with them in order. A specification
that was itself read has none of these (`PropertySpec.Storable`), and it is read again from what it
is written as (`PropertySpec.ofDocument?_document_toJson`). So a table that is loaded, or put
together from specifications that were read, is the one that its text loads
(`PropertyTable.load?_text_of_reachable`). -/

namespace Symbology

open Json (Document)

/-! ## Numbers that fit -/

namespace Json

theorem Document.Fits.isFinite_of_float? {document : Document} (h : document.Fits) {x : Float}
    (hread : document.float? = some x) : x.isFinite = true := by
  unfold Document.float? at hread
  split at hread
  next =>
    obtain rfl := Option.some.inj hread
    cases h with
    | number fits => exact (fits _ rfl).isFinite_toFloat
  · contradiction

theorem Document.Fits.lt_of_nat? {document : Document} (h : document.Fits) {n : ℕ}
    (hread : document.nat? = some n) : n < 2 ^ 64 := by
  unfold Document.nat? at hread
  split at hread
  next n =>
    obtain rfl := Option.some.inj hread
    cases h with
    | number fits =>
      obtain ⟨_, hhigh⟩ := fits _ rfl
      simp only [Int.ofNat_eq_natCast] at hhigh
      omega
  · contradiction

end Json

/-! ## Parts of a specification -/

namespace PropertySpec

/-- The specification holds only what a text can hold. -/
structure Storable (spec : PropertySpec) : Prop where
  minimum_finite : ∀ x ∈ spec.minimum, x.isFinite = true
  default_wellFormed : ∀ json ∈ spec.default, json.WellFormed
  default_sorted : ∀ json ∈ spec.default, json.sorted = json
  default_ne_null : ∀ json ∈ spec.default, json ≠ .null
  length_fits : ∀ n ∈ spec.length, n < 2 ^ 64

/-- A part that is present was read from something other than `null`. -/
theorem exists_of_optional {α : Type} {read : Document → Option α} {found : Option Document}
    {part : Option α} (h : optional read found = some part) {value : α} (hvalue : value ∈ part) :
    ∃ document, found = some document ∧ document ≠ .null ∧ read document = some value := by
  obtain rfl := hvalue
  unfold optional at h
  split at h
  · cases h
  · cases h
  next document hnull =>
    obtain ⟨_, hread, hsome⟩ := Option.map_eq_some_iff.mp h
    obtain rfl := Option.some.inj hsome
    exact ⟨document, rfl, hnull, hread⟩

/-- **A specification that was read from parts that fit is storable.** -/
theorem storable_of_ofParts? {parts : List (String × Document)} {spec : PropertySpec}
    (hfits : ∀ part ∈ parts, part.2.Fits) (h : ofParts? parts = some spec) : spec.Storable := by
  have hfound : ∀ {key document}, parts.lookup key = some document → document.Fits :=
    fun hlookup => hfits _ (Members.mem_of_lookup hlookup)
  unfold ofParts? at h
  obtain ⟨kind, _, h⟩ := Option.bind_eq_some_iff.mp h
  obtain ⟨minimum, hminimum, h⟩ := Option.bind_eq_some_iff.mp h
  obtain ⟨default, hdefault, h⟩ := Option.bind_eq_some_iff.mp h
  obtain ⟨blending, _, h⟩ := Option.bind_eq_some_iff.mp h
  obtain ⟨zoomDependent, _, h⟩ := Option.bind_eq_some_iff.mp h
  obtain ⟨featureDependent, _, h⟩ := Option.bind_eq_some_iff.mp h
  obtain ⟨item, _, h⟩ := Option.bind_eq_some_iff.mp h
  obtain ⟨length, hlength, h⟩ := Option.bind_eq_some_iff.mp h
  obtain rfl := Option.some.inj h
  refine ⟨fun x hx => ?_, fun json hjson => ?_, fun json hjson => ?_, fun json hjson => ?_,
    fun n hn => ?_⟩
  · obtain ⟨document, hlookup, _, hread⟩ := exists_of_optional hminimum hx
    exact (hfound hlookup).isFinite_of_float? hread
  · obtain ⟨document, hlookup, _, hread⟩ := exists_of_optional hdefault hjson
    exact ((hfound hlookup).wellFormed_sorted hread).1
  · obtain ⟨document, hlookup, _, hread⟩ := exists_of_optional hdefault hjson
    exact ((hfound hlookup).wellFormed_sorted hread).2
  · obtain ⟨document, _, hnull, hread⟩ := exists_of_optional hdefault hjson
    rintro rfl
    cases document <;> simp_all [Document.json?]
  · obtain ⟨document, hlookup, _, hread⟩ := exists_of_optional hlength hn
    exact (hfound hlookup).lt_of_nat? hread

/-- The members of an object fit when their keys are well formed. -/
theorem fits_of_members? {members : List (Option String × Document)}
    {parts : List (String × Document)} (h : Document.members? members = some parts)
    (hfits : ∀ member ∈ members, member.2.Fits) : ∀ part ∈ parts, part.2.Fits := by
  induction members generalizing parts with
  | nil =>
    obtain rfl := Option.some.inj h
    simp
  | cons member rest ih =>
    unfold Document.members? at h
    rw [List.mapM_cons] at h
    obtain ⟨part, hpart, h⟩ := Option.bind_eq_some_iff.mp h
    obtain ⟨others, hothers, h⟩ := Option.bind_eq_some_iff.mp h
    obtain rfl := Option.some.inj h
    obtain ⟨hmember, hrest⟩ := List.forall_mem_cons.mp hfits
    obtain ⟨key, _, rfl⟩ := Option.map_eq_some_iff.mp hpart
    exact List.forall_mem_cons.mpr ⟨hmember, ih hothers hrest⟩

/-- **A specification that was read is storable.** -/
theorem storable_of_ofDocument? {document : Document} {spec : PropertySpec}
    (hfits : document.Fits) (h : ofDocument? document = some spec) : spec.Storable := by
  cases hfits with
  | object hmembers =>
    obtain ⟨parts, hparts, hread⟩ := Option.bind_eq_some_iff.mp h
    split at hread
    · exact storable_of_ofParts? (fits_of_members? hparts hmembers) hread
    · contradiction
  | @array items hitems =>
    rw [ofDocument?] at h
    split at h
    · exact storable_of_ofParts? (fun part hpart => hitems _ (List.of_mem_zip hpart).2) h
    · contradiction
  | _ => contradiction

/-! ## The text of a specification -/

/-- The members of the object, one after another. -/
theorem fields_eq (spec : PropertySpec) :
    spec.fields =
      ("type", .string spec.kind.label) ::
        (optionalField "minimum" Json.ofFloat spec.minimum ++
          (optionalField "default" id spec.default ++
            (optionalField "function" (fun blending => .string blending.label) spec.blending ++
              (("zoom-function", .bool spec.zoomDependent) ::
                ("property-function", .bool spec.featureDependent) ::
                  (optionalField "value" (fun kind => .string kind.label) spec.item ++
                    (optionalField "length" (fun n : ℕ => .number (.integer n)) spec.length ++
                      [])))))) := by
  cases hlength : spec.length <;> simp [fields, optionalField, hlength]

/-- What stands under a key, where an optional field comes first. -/
theorem lookup_optionalField_append {α : Type} (key name : String) (toJson : α → Json)
    (part : Option α) (rest : List (String × Json)) :
    (optionalField key toJson part ++ rest).lookup name =
      if name = key then (part.map toJson).or (rest.lookup name) else rest.lookup name := by
  cases part with
  | none => simp [optionalField]
  | some value =>
    by_cases hname : name = key
    · subst hname
      simp [optionalField]
    · simp [optionalField, List.lookup_cons, hname, beq_false_of_ne hname]

/-- Each key leads to its part. -/
theorem lookup_fields (spec : PropertySpec) :
    spec.fields.lookup "type" = some (.string spec.kind.label) ∧
    spec.fields.lookup "minimum" = spec.minimum.map Json.ofFloat ∧
    spec.fields.lookup "default" = spec.default.map id ∧
    spec.fields.lookup "function" = spec.blending.map (fun blending => .string blending.label) ∧
    spec.fields.lookup "zoom-function" = some (.bool spec.zoomDependent) ∧
    spec.fields.lookup "property-function" = some (.bool spec.featureDependent) ∧
    spec.fields.lookup "value" = spec.item.map (fun kind => .string kind.label) ∧
    spec.fields.lookup "length" = spec.length.map (fun n : ℕ => .number (.integer n)) := by
  rw [fields_eq]
  refine ⟨?_, ?_, ?_, ?_, ?_, ?_, ?_, ?_⟩ <;>
    simp [lookup_optionalField_append, List.lookup_cons, -List.append_nil]

theorem keys_optionalField_append {α : Type} (key : String) (toJson : α → Json) (part : Option α)
    {rest : List (String × Json)} {names : List String}
    (h : (rest.map Prod.fst).Sublist names) :
    ((optionalField key toJson part ++ rest).map Prod.fst).Sublist (key :: names) := by
  cases part with
  | none => exact h.cons key
  | some value => exact h.cons_cons key

/-- The keys of a specification stand in their fixed order. -/
theorem keys_fields (spec : PropertySpec) : (spec.fields.map Prod.fst).Sublist keys := by
  rw [fields_eq]
  refine .cons_cons _ (keys_optionalField_append _ _ _ (keys_optionalField_append _ _ _
    (keys_optionalField_append _ _ _ (.cons_cons _ (.cons_cons _ ?_)))))
  exact keys_optionalField_append _ _ _ (keys_optionalField_append _ _ _ (List.Sublist.refl _))

theorem keysUnique_of_nodup {parts : List (String × Document)}
    (h : (parts.map Prod.fst).Nodup) : keysUnique parts = true := by
  refine List.all_eq_true.mpr (fun key _ => decide_eq_true ?_)
  have hcount := List.nodup_iff_count_le_one.mp h key
  rwa [List.count, List.countP_map, List.countP_eq_length_filter] at hcount

/-- The parts of a specification, as its text is read. -/
def parts (spec : PropertySpec) : List (String × Document) :=
  spec.fields.map (fun member => (member.1, member.2.document))

theorem document_toJson (spec : PropertySpec) :
    spec.toJson.document = .object (Json.memberDocuments spec.fields) :=
  rfl

theorem members?_memberDocuments (members : List (String × Json)) :
    Document.members? (Json.memberDocuments members) =
      some (members.map (fun member => (member.1, member.2.document))) := by
  induction members with
  | nil => rfl
  | cons member rest ih =>
    unfold Document.members? at ih ⊢
    rw [Json.memberDocuments, List.mapM_cons, ih]
    rfl

theorem lookup_parts (spec : PropertySpec) (key : String) :
    spec.parts.lookup key = (spec.fields.lookup key).map Json.document := by
  unfold parts
  induction spec.fields with
  | nil => rfl
  | cons member rest ih =>
    rw [List.map_cons, List.lookup_cons, List.lookup_cons, ih]
    cases key == member.1 <;> rfl

theorem keysUnique_parts (spec : PropertySpec) : keysUnique spec.parts = true := by
  refine keysUnique_of_nodup ?_
  rw [parts, List.map_map]
  exact spec.keys_fields.nodup (by decide)

/-! ## Reading the parts again -/

/-- An optional part is read again if each of its values is. -/
theorem optional_map {α : Type} {read : Document → Option α} {toJson : α → Json} {part : Option α}
    (h : ∀ value ∈ part, (toJson value).document ≠ .null ∧
      read (toJson value).document = some value) :
    optional read ((part.map toJson).map Json.document) = some part := by
  cases part with
  | none => rfl
  | some value =>
    obtain ⟨hnull, hread⟩ := h value rfl
    rw [Option.map_some, Option.map_some]
    unfold optional
    split
    · contradiction
    next hdocument => exact absurd (Option.some.inj hdocument) hnull
    next hdocument =>
      obtain rfl := Option.some.inj hdocument
      rw [hread, Option.map_some]

theorem kind?_label (kind : PropertyKind) : kind? (.string kind.label) = some kind := by
  cases kind <;> rfl

theorem blending?_label (blending : Blending) :
    blending? (.string blending.label) = some blending := by
  cases blending <;> rfl

theorem document_ofFloat {x : Float} (h : x.isFinite = true) :
    (Json.ofFloat x).document = .number (some (.float x h)) := by
  have hfits : (Json.Number.float x h).Fits := trivial
  rw [Json.ofFloat, dif_pos h, Json.document, Json.Number.ofNumeral?_numeral hfits]

theorem document_integer {n : ℕ} (h : n < 2 ^ 64) :
    (Json.number (.integer n)).document = .number (some (.integer n)) := by
  have hfits : (Json.Number.integer n).Fits := ⟨by omega, by omega⟩
  rw [Json.document, Json.Number.ofNumeral?_numeral hfits]

theorem document_ne_null {json : Json} (h : json ≠ .null) : json.document ≠ .null := by
  cases json <;> simp_all [Json.document]

/-- **A specification is read from the parts that it is written as.** -/
theorem ofParts?_parts {spec : PropertySpec} (h : spec.Storable) :
    ofParts? spec.parts = some spec := by
  obtain ⟨htype, hminimum, hdefault, hfunction, hzoom, hfeature, hvalue, hlength⟩ :=
    spec.lookup_fields
  have kind_read : (spec.parts.lookup "type").bind kind? = some spec.kind := by
    rw [lookup_parts, htype]
    exact kind?_label spec.kind
  have minimum_read : optional Document.float? (spec.parts.lookup "minimum") =
      some spec.minimum := by
    rw [lookup_parts, hminimum]
    refine optional_map (fun x hx => ?_)
    rw [document_ofFloat (h.minimum_finite x hx)]
    exact ⟨by simp, rfl⟩
  have default_read : optional Document.json? (spec.parts.lookup "default") =
      some spec.default := by
    rw [lookup_parts, hdefault]
    refine optional_map (fun json hjson => ⟨document_ne_null (h.default_ne_null json hjson), ?_⟩)
    rw [id, Json.json?_document (h.default_wellFormed json hjson), h.default_sorted json hjson]
  have blending_read : optional blending? (spec.parts.lookup "function") =
      some spec.blending := by
    rw [lookup_parts, hfunction]
    exact optional_map (fun blending _ => ⟨by simp [Json.document], blending?_label blending⟩)
  have zoom_read : flag (spec.parts.lookup "zoom-function") = some spec.zoomDependent := by
    rw [lookup_parts, hzoom]
    rfl
  have feature_read : flag (spec.parts.lookup "property-function") =
      some spec.featureDependent := by
    rw [lookup_parts, hfeature]
    rfl
  have item_read : optional kind? (spec.parts.lookup "value") = some spec.item := by
    rw [lookup_parts, hvalue]
    exact optional_map (fun kind _ => ⟨by simp [Json.document], kind?_label kind⟩)
  have length_read : optional Document.nat? (spec.parts.lookup "length") = some spec.length := by
    rw [lookup_parts, hlength]
    refine optional_map (fun n hn => ?_)
    rw [document_integer (h.length_fits n hn)]
    exact ⟨by simp, rfl⟩
  rw [ofParts?, kind_read, minimum_read, default_read, blending_read, zoom_read, feature_read,
    item_read, length_read]
  rfl

/-- **A specification that can be stored is read from its text.** -/
theorem ofDocument?_document_toJson {spec : PropertySpec} (h : spec.Storable) :
    ofDocument? spec.toJson.document = some spec := by
  rw [document_toJson, ofDocument?, members?_memberDocuments, Option.bind_some]
  exact (if_pos spec.keysUnique_parts).trans (ofParts?_parts h)

/-- The specification was read from JSON, from a text or from a value. -/
inductive Deserialized : PropertySpec → Prop
  | ofText {text : String} {document : Document} {spec : PropertySpec}
      (hdocument : Document.read? text = some document)
      (hspec : ofDocument? document = some spec) : Deserialized spec
  | ofJson {json : Json} {spec : PropertySpec} (hjson : json.WellFormed)
      (hspec : ofJson? json = some spec) : Deserialized spec

theorem Deserialized.storable {spec : PropertySpec} (h : Deserialized spec) : spec.Storable := by
  cases h with
  | ofText hdocument hspec => exact storable_of_ofDocument? (Json.fits_of_read? hdocument) hspec
  | ofJson hjson hspec => exact storable_of_ofDocument? hjson.fits_toDocument hspec

end PropertySpec

/-! ## Tables -/

namespace PropertyTable

/-- The names ascend, and the specifications can be stored. -/
structure Storable (table : PropertyTable) : Prop where
  ascending : Members.Ascending table.properties
  specs_storable : ∀ property ∈ table.properties, property.2.Storable

theorem storable_empty : empty.Storable :=
  ⟨List.Pairwise.nil, by simp [empty]⟩

theorem Storable.insert {table : PropertyTable} (h : table.Storable) (name : String)
    {spec : PropertySpec} (hspec : spec.Storable) : (table.insert name spec).Storable := by
  refine ⟨Members.ascending_insert name spec h.ascending, fun property hproperty => ?_⟩
  rcases Members.mem_insert hproperty with rfl | hproperty
  · exact hspec
  · exact h.specs_storable property hproperty

theorem storable_of_specs? {members : List (Option String × Document)}
    {pairs : List (String × PropertySpec)} (h : specs? members = some pairs)
    (hfits : ∀ member ∈ members, member.2.Fits) : ∀ pair ∈ pairs, pair.2.Storable := by
  induction members generalizing pairs with
  | nil =>
    obtain rfl := Option.some.inj h
    simp
  | cons member rest ih =>
    obtain ⟨hmember, hrest⟩ := List.forall_mem_cons.mp hfits
    unfold specs? at h
    split at h
    next name spec others _ hspec hothers =>
      obtain rfl := Option.some.inj h
      exact List.forall_mem_cons.mpr
        ⟨PropertySpec.storable_of_ofDocument? hmember hspec, ih hothers hrest⟩
    · contradiction

/-- A table that is loaded can be stored. -/
theorem storable_of_load? {text : String} {table : PropertyTable} (h : load? text = some table) :
    table.Storable := by
  obtain ⟨document, hdocument, htable⟩ := Option.bind_eq_some_iff.mp h
  have hfits := Json.fits_of_read? hdocument
  cases hfits with
  | object hmembers =>
    obtain ⟨pairs, hpairs, rfl⟩ := Option.map_eq_some_iff.mp htable
    exact ⟨Members.ascending_ofList pairs, fun property hproperty =>
      storable_of_specs? hpairs hmembers property (Members.mem_ofList hproperty)⟩
  | _ => contradiction

theorem specs?_memberDocuments {properties : List (String × PropertySpec)}
    (h : ∀ property ∈ properties, property.2.Storable) :
    specs? (Json.memberDocuments
      (properties.map (fun property => (property.1, property.2.toJson)))) = some properties := by
  induction properties with
  | nil => rfl
  | cons property rest ih =>
    obtain ⟨hproperty, hrest⟩ := List.forall_mem_cons.mp h
    simp only [List.map_cons, Json.memberDocuments, specs?,
      PropertySpec.ofDocument?_document_toJson hproperty, ih hrest]

/-- A table that can be stored is loaded from its text. -/
theorem Storable.load?_text {table : PropertyTable} (h : table.Storable) :
    load? table.text = some table := by
  have hread : Document.read? table.text = some table.toJson.document :=
    Document.read?_compact table.toJson
  have hdocument : ofDocument? table.toJson.document = some table := by
    rw [toJson, Json.document, ofDocument?, specs?_memberDocuments h.specs_storable,
      Option.map_some, Members.ofList_of_ascending h.ascending]
  rw [load?, hread, Option.bind_some, hdocument]

/-! ## Tables that can be reached -/

/-- The table comes from the empty one by loading texts and by inserting specifications that were
read from JSON. -/
inductive Reachable : PropertyTable → Prop
  | empty : Reachable empty
  | load {text : String} {table : PropertyTable} (hload : load? text = some table) :
      Reachable table
  | insert {table : PropertyTable} (htable : Reachable table) (name : String)
      {spec : PropertySpec} (hspec : spec.Deserialized) : Reachable (table.insert name spec)

theorem Reachable.storable {table : PropertyTable} (h : Reachable table) : table.Storable := by
  induction h with
  | empty => exact storable_empty
  | load hload => exact storable_of_load? hload
  | insert _ name hspec ih => exact ih.insert name hspec.storable

/-- **A table that can be reached is loaded again from its text.** -/
theorem load?_text_of_reachable {table : PropertyTable} (h : Reachable table) :
    load? table.text = some table :=
  h.storable.load?_text

/-- A table that is loaded from a text and gets another property, which is read from a value. -/
theorem load?_text_of_reachable_width :
    ∃ table : PropertyTable, table.names = ["cap", "width"] ∧
      table.get? "width" =
        some { kind := .number, minimum := some (Number.ofInt 0), default := some (.array [.null]),
               zoomDependent := false } ∧
      Reachable table ∧ load? table.text = some table := by
  have hcap : PropertySpec.Deserialized { kind := .enum, default := some (.string "butt") } := by
    have hjson : (Json.object [("default", .string "butt"), ("type", .string "enum")]).WellFormed :=
      .object (by decide) (by simp [Json.WellFormed.string])
    exact .ofJson hjson rfl
  have hwidth : PropertySpec.Deserialized
      { kind := .number, minimum := some (Number.ofInt 0), default := some (.array [.null]),
        zoomDependent := false } := by
    have hdefault : (Json.array [.null]).WellFormed := .array (by simp [Json.WellFormed.null])
    have hminimum : (Json.number (.integer 0)).WellFormed := .number ⟨by decide, by decide⟩
    have hkind : (Json.object [("number", .null)]).WellFormed :=
      .object (by decide) (by simp [Json.WellFormed.null])
    have hjson : (Json.object [("default", .array [.null]), ("minimum", .number (.integer 0)),
        ("type", .object [("number", .null)]), ("zoom-function", .bool false)]).WellFormed :=
      .object (by decide) (by simp [hdefault, hminimum, hkind, Json.WellFormed.bool])
    exact .ofJson hjson rfl
  have hload := (Reachable.empty.insert "cap" hcap).storable.load?_text
  have htable := (Reachable.load hload).insert "width" hwidth
  exact ⟨_, by decide, rfl, htable, load?_text_of_reachable htable⟩

end PropertyTable

end Symbology
