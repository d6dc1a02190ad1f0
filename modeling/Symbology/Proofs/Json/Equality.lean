import Symbology.Json.Basic
import Symbology.Proofs.Members
import Symbology.Proofs.Related

set_option autoImplicit false

/-! # Deep equality

Two values are deep-equal (`DeepEqual`) when they have one structure, the same words and strings,
and related numbers; the members of an object may stand in any order. Sorting takes the freedom of
order away: the sorted copies of two values are the same exactly when the values are deep-equal
with the same numbers (`sorted_eq_iff`), and they compare equal exactly when the values are
deep-equal with numbers that compare equal (`sorted_beq_iff`). -/

namespace Symbology.Json

/-! ## Well-formed values -/

/-- The number is one that a text can hold: an integer is unsigned or signed with 64 bits. -/
def Number.Fits : Number → Prop
  | .integer n => -0x8000000000000000 ≤ n ∧ n < 0x10000000000000000
  | .float _ _ => True

/-- The numbers of the value fit, and no object in it has two members with one key. -/
inductive WellFormed : Json → Prop
  | null : WellFormed .null
  | bool (b : Bool) : WellFormed (.bool b)
  | number {n : Number} (fits : n.Fits) : WellFormed (.number n)
  | string (s : String) : WellFormed (.string s)
  | array {items : List Json} (items_wellFormed : ∀ item ∈ items, WellFormed item) :
      WellFormed (.array items)
  | object {members : List (String × Json)} (nodup : (members.map Prod.fst).Nodup)
      (members_wellFormed : ∀ member ∈ members, WellFormed member.2) :
      WellFormed (.object members)

/-- The values have one structure, the same words and strings, and numbers related by `same`. An
array has its items in order, an object has its members under their keys. -/
inductive DeepEqual (same : Number → Number → Prop) : Json → Json → Prop
  | null : DeepEqual same .null .null
  | bool (b : Bool) : DeepEqual same (.bool b) (.bool b)
  | number {m n : Number} (related : same m n) : DeepEqual same (.number m) (.number n)
  | string (s : String) : DeepEqual same (.string s) (.string s)
  | array {as bs : List Json} (items : List.Forall₂ (DeepEqual same) as bs) :
      DeepEqual same (.array as) (.array bs)
  | object {as bs : List (String × Json)}
      (members : ∀ key, Option.Rel (DeepEqual same) (as.lookup key) (bs.lookup key)) :
      DeepEqual same (.object as) (.object bs)

/-! ## Sorted values -/

theorem sortedItems_eq_map (items : List Json) : sortedItems items = items.map sorted := by
  induction items with
  | nil => rfl
  | cons json rest ih => rw [sortedItems, ih, List.map_cons]

theorem sortedMembers_eq_map (members : List (String × Json)) :
    sortedMembers members = members.map (fun member => (member.1, member.2.sorted)) := by
  induction members with
  | nil => rfl
  | cons member rest ih => rw [sortedMembers, ih, List.map_cons]

theorem map_fst_sortedMembers (members : List (String × Json)) :
    (sortedMembers members).map Prod.fst = members.map Prod.fst := by
  rw [sortedMembers_eq_map, List.map_map]
  rfl

theorem lookup_sortedMembers (members : List (String × Json)) (key : String) :
    (sortedMembers members).lookup key = (members.lookup key).map sorted := by
  induction members with
  | nil => rfl
  | cons member rest ih =>
    obtain ⟨k, json⟩ := member
    rw [sortedMembers, List.lookup_cons, List.lookup_cons, ih]
    cases key == k <;> rfl

/-- Looking up in the sorted members of an object gives the sorted value. -/
theorem lookup_ofList_sortedMembers {members : List (String × Json)}
    (h : (members.map Prod.fst).Nodup) (key : String) :
    (Members.ofList (sortedMembers members)).lookup key = (members.lookup key).map sorted := by
  rw [Members.lookup_ofList (by rwa [map_fst_sortedMembers]), lookup_sortedMembers]

theorem WellFormed.sorted {json : Json} (h : json.WellFormed) : json.sorted.WellFormed := by
  induction h with
  | null => exact WellFormed.null
  | bool b => exact WellFormed.bool b
  | number fits => exact WellFormed.number fits
  | string s => exact WellFormed.string s
  | array _ ih =>
    rw [Json.sorted, sortedItems_eq_map]
    refine WellFormed.array ?_
    intro json hjson
    obtain ⟨item, hitem, rfl⟩ := List.mem_map.mp hjson
    exact ih item hitem
  | @object members nodup _ ih =>
    have hascending := Members.ascending_ofList (sortedMembers members)
    refine WellFormed.object (Members.nodup_of_ascending hascending) ?_
    rintro ⟨key, json⟩ hmember
    have hlookup := Members.lookup_of_mem hascending hmember
    rw [lookup_ofList_sortedMembers nodup] at hlookup
    obtain ⟨json, hjson, rfl⟩ := Option.map_eq_some_iff.mp hlookup
    exact ih (key, json) (Members.mem_of_lookup hjson)

/-- **Sorting twice is sorting once.** -/
theorem sorted_sorted {json : Json} (h : json.WellFormed) : json.sorted.sorted = json.sorted := by
  induction h with
  | null | bool | number | string => rfl
  | array _ ih =>
    rw [sorted, sorted, sortedItems_eq_map, sortedItems_eq_map, List.map_map]
    exact congrArg array (List.map_congr_left ih)
  | @object members nodup _ ih =>
    have hascending := Members.ascending_ofList (sortedMembers members)
    rw [sorted, sorted]
    refine congrArg object (Members.eq_of_lookup (Members.ascending_ofList _) hascending ?_)
    intro key
    rw [lookup_ofList_sortedMembers (Members.nodup_of_ascending hascending),
      lookup_ofList_sortedMembers nodup, Option.map_map]
    exact Option.map_congr (fun json hjson => ih (key, json) (Members.mem_of_lookup hjson))

/-! ## Relations between sorted values -/

/-- The relation compares values part by part, numbers by `same`, and the items of an array and the
members of an object at equal places. -/
structure Structural (same : Number → Number → Prop) (R : Json → Json → Prop) : Prop where
  kind {a b : Json} : R a b → a.kind = b.kind
  null : R .null .null
  bool (a b : Bool) : R (.bool a) (.bool b) ↔ a = b
  number (m n : Number) : R (.number m) (.number n) ↔ same m n
  string (s t : String) : R (.string s) (.string t) ↔ s = t
  array (as bs : List Json) : R (.array as) (.array bs) ↔ List.Forall₂ R as bs
  object (as bs : List (String × Json)) :
    R (.object as) (.object bs) ↔ List.Forall₂ (fun a b => a.1 = b.1 ∧ R a.2 b.2) as bs

theorem structural_eq : Structural (· = ·) (· = ·) where
  kind h := congrArg Json.kind h
  null := rfl
  bool a b := by rw [bool.injEq]
  number m n := by rw [number.injEq]
  string s t := by rw [string.injEq]
  array as bs := by rw [array.injEq, List.forall₂_eq_eq_eq]
  object as bs := by
    have hpair : (fun a b : String × Json => a.1 = b.1 ∧ a.2 = b.2) = (· = ·) := by
      funext a b
      rw [Prod.ext_iff]
    rw [object.injEq, hpair, List.forall₂_eq_eq_eq]

theorem beqItems_iff {as bs : List Json} :
    beqItems as bs = true ↔ List.Forall₂ (fun a b => (a == b) = true) as bs := by
  induction as generalizing bs with
  | nil => cases bs <;> simp [beqItems]
  | cons a as ih =>
    cases bs with
    | nil => simp [beqItems]
    | cons b bs =>
      rw [beqItems, Bool.and_eq_true, ih, List.forall₂_cons]
      rfl

theorem beqMembers_iff {as bs : List (String × Json)} :
    beqMembers as bs = true ↔
      List.Forall₂ (fun a b => a.1 = b.1 ∧ (a.2 == b.2) = true) as bs := by
  induction as generalizing bs with
  | nil => cases bs <;> simp [beqMembers]
  | cons a as ih =>
    obtain ⟨k, a⟩ := a
    cases bs with
    | nil => simp [beqMembers]
    | cons b bs =>
      obtain ⟨l, b⟩ := b
      rw [beqMembers, Bool.and_eq_true, Bool.and_eq_true, ih, List.forall₂_cons, beq_iff_eq,
        and_assoc]
      rfl

/-- The comparison of values is structural; it takes members at equal places. -/
theorem structural_beq : Structural (fun m n => (m == n) = true) (fun a b => (a == b) = true) where
  kind {a b} h := by
    cases a <;> cases b <;> first | rfl | contradiction
  null := rfl
  bool a b := beq_iff_eq (a := a)
  number m n := Iff.rfl
  string s t := beq_iff_eq (a := s)
  array as bs := beqItems_iff
  object as bs := beqMembers_iff

theorem kind_sorted (json : Json) : json.sorted.kind = json.kind := by
  cases json <;> rfl

theorem DeepEqual.kind_eq {same : Number → Number → Prop} {a b : Json} (h : a.DeepEqual same b) :
    a.kind = b.kind := by
  cases h <;> rfl

section

variable {same : Number → Number → Prop} {R : Json → Json → Prop}

theorem deepEqual_array_iff {as bs : List Json} :
    (array as).DeepEqual same (.array bs) ↔ List.Forall₂ (DeepEqual same) as bs := by
  constructor
  · rintro ⟨⟩
    assumption
  · exact DeepEqual.array

theorem deepEqual_object_iff {as bs : List (String × Json)} :
    (object as).DeepEqual same (.object bs) ↔
      ∀ key, Option.Rel (DeepEqual same) (as.lookup key) (bs.lookup key) := by
  constructor
  · rintro ⟨⟩
    assumption
  · exact DeepEqual.object

/-- Values of different kinds are not related, sorted or not. -/
theorem Structural.iff_of_kind_ne (hR : Structural same R) {a b : Json} (h : a.kind ≠ b.kind) :
    R a.sorted b.sorted ↔ a.DeepEqual same b := by
  refine iff_of_false (fun hab => h ?_) (fun hab => h hab.kind_eq)
  rw [← kind_sorted a, ← kind_sorted b]
  exact hR.kind hab

/-- Sorted arrays are related when their sorted items are. -/
theorem Structural.sorted_array_iff (hR : Structural same R) {as bs : List Json} :
    R (sorted (.array as)) (sorted (.array bs)) ↔
      List.Forall₂ (fun a b => R a.sorted b.sorted) as bs := by
  rw [sorted, sorted, hR.array, sortedItems_eq_map, sortedItems_eq_map,
    List.forall₂_map_left_iff, List.forall₂_map_right_iff]

/-- Sorted objects are related when the same keys lead to values with related sorted copies. -/
theorem Structural.sorted_object_iff (hR : Structural same R) {as bs : List (String × Json)}
    (ha : (as.map Prod.fst).Nodup) (hb : (bs.map Prod.fst).Nodup) :
    R (sorted (.object as)) (sorted (.object bs)) ↔
      ∀ key, Option.Rel (fun a b => R a.sorted b.sorted) (as.lookup key) (bs.lookup key) := by
  have hkey : ∀ key, Option.Rel R ((Members.ofList (sortedMembers as)).lookup key)
        ((Members.ofList (sortedMembers bs)).lookup key) ↔
      Option.Rel (fun a b => R a.sorted b.sorted) (as.lookup key) (bs.lookup key) := by
    intro key
    rw [lookup_ofList_sortedMembers ha, lookup_ofList_sortedMembers hb, Option.rel_map_iff]
  rw [sorted, sorted, hR.object, ← forall_congr' hkey]
  exact ⟨List.Forall₂.lookup,
    Members.forall₂_of_lookup (Members.ascending_ofList _) (Members.ascending_ofList _)⟩

/-- **A structural relation between sorted copies is deep equality.** -/
theorem Structural.sorted_iff (hR : Structural same R) {a b : Json} (ha : a.WellFormed)
    (hb : b.WellFormed) : R a.sorted b.sorted ↔ a.DeepEqual same b := by
  induction ha generalizing b with
  | null =>
    cases hb with
    | null => exact iff_of_true hR.null DeepEqual.null
    | _ => exact hR.iff_of_kind_ne (by simp [Json.kind])
  | bool x =>
    cases hb with
    | bool y =>
      refine (hR.bool x y).trans ⟨?_, ?_⟩
      · rintro rfl
        exact DeepEqual.bool x
      · rintro ⟨⟩
        rfl
    | _ => exact hR.iff_of_kind_ne (by simp [Json.kind])
  | @number m _ =>
    cases hb with
    | @number n _ =>
      refine (hR.number m n).trans ⟨DeepEqual.number, ?_⟩
      rintro ⟨⟩
      assumption
    | _ => exact hR.iff_of_kind_ne (by simp [Json.kind])
  | string s =>
    cases hb with
    | string t =>
      refine (hR.string s t).trans ⟨?_, ?_⟩
      · rintro rfl
        exact DeepEqual.string s
      · rintro ⟨⟩
        rfl
    | _ => exact hR.iff_of_kind_ne (by simp [Json.kind])
  | @array as _ ih =>
    cases hb with
    | @array bs hbs =>
      have hitem : ∀ a ∈ as, ∀ b ∈ bs, (R a.sorted b.sorted ↔ a.DeepEqual same b) :=
        fun a ha b hb => ih a ha (hbs b hb)
      rw [hR.sorted_array_iff, deepEqual_array_iff]
      exact ⟨fun h => h.imp_of_mem (fun a ha b hb => (hitem a ha b hb).mp),
        fun h => h.imp_of_mem (fun a ha b hb => (hitem a ha b hb).mpr)⟩
    | _ => exact hR.iff_of_kind_ne (by simp [Json.kind])
  | @object as hnodupA _ ih =>
    cases hb with
    | @object bs hnodupB hbs =>
      have hvalue : ∀ key, ∀ a ∈ as.lookup key, ∀ b ∈ bs.lookup key,
          (R a.sorted b.sorted ↔ a.DeepEqual same b) := fun key a ha b hb =>
        ih (key, a) (Members.mem_of_lookup ha) (hbs (key, b) (Members.mem_of_lookup hb))
      rw [hR.sorted_object_iff hnodupA hnodupB, deepEqual_object_iff]
      exact ⟨fun h key => (h key).imp_of_mem (fun a ha b hb => (hvalue key a ha b hb).mp),
        fun h key => (h key).imp_of_mem (fun a ha b hb => (hvalue key a ha b hb).mpr)⟩
    | _ => exact hR.iff_of_kind_ne (by simp [Json.kind])

end

/-- **Values have the same sorted copy exactly when they are deep-equal** with the same numbers. -/
theorem sorted_eq_iff {a b : Json} (ha : a.WellFormed) (hb : b.WellFormed) :
    a.sorted = b.sorted ↔ a.DeepEqual (· = ·) b :=
  structural_eq.sorted_iff ha hb

/-- **Sorted copies compare equal exactly when the values are deep-equal** with numbers that compare
equal. -/
theorem sorted_beq_iff {a b : Json} (ha : a.WellFormed) (hb : b.WellFormed) :
    (a.sorted == b.sorted) = true ↔ a.DeepEqual (fun m n => (m == n) = true) b :=
  structural_beq.sorted_iff ha hb

end Symbology.Json
