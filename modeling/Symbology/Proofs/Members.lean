import Symbology.Members
import Symbology.Proofs.Related

set_option autoImplicit false

/-! # Keyed lists are determined by what is looked up

Setting a member keeps the keys in ascending order, so a list of pairs always makes a keyed list
(`ascending_ofList`), which holds what the pairs hold when no key stands twice (`lookup_ofList`).
A keyed list has no choice in its order: two of them in which the same keys lead to related values
are related member by member (`forall₂_of_lookup`). -/

namespace Symbology.Members

variable {α β : Type}

/-! ## The order of the keys -/

theorem eq_of_not_lt {k l : String} (hkl : ¬k < l) (hlk : ¬l < k) : k = l :=
  String.le_antisymm (String.not_lt.mp hlk) (String.not_lt.mp hkl)

theorem mem_insert {key : String} {value : α} {members : List (String × α)} {member : String × α}
    (h : member ∈ insert key value members) : member = (key, value) ∨ member ∈ members := by
  induction members with
  | nil => exact Or.inl (List.mem_singleton.mp h)
  | cons pair rest ih =>
    obtain ⟨k, v⟩ := pair
    rw [insert] at h
    split at h
    · exact List.mem_cons.mp h
    · split at h
      · exact (List.mem_cons.mp h).imp_right (List.mem_cons_of_mem _)
      · rcases List.mem_cons.mp h with rfl | hrest
        · exact Or.inr List.mem_cons_self
        · exact (ih hrest).imp_right (List.mem_cons_of_mem _)

theorem mem_insertAll {pairs members : List (String × α)} {member : String × α}
    (h : member ∈ insertAll members pairs) : member ∈ members ∨ member ∈ pairs := by
  induction pairs generalizing members with
  | nil => exact Or.inl h
  | cons pair pairs ih =>
    rcases ih h with hinsert | hpairs
    · rcases mem_insert hinsert with rfl | hmembers
      · exact Or.inr List.mem_cons_self
      · exact Or.inl hmembers
    · exact Or.inr (List.mem_cons_of_mem _ hpairs)

theorem mem_ofList {pairs : List (String × α)} {member : String × α} (h : member ∈ ofList pairs) :
    member ∈ pairs :=
  (mem_insertAll h).resolve_left List.not_mem_nil

theorem ascending_insert (key : String) (value : α) {members : List (String × α)}
    (h : Ascending members) : Ascending (insert key value members) := by
  induction members with
  | nil => exact List.pairwise_singleton _ _
  | cons pair rest ih =>
    obtain ⟨k, v⟩ := pair
    obtain ⟨hbelow, hrest⟩ := List.pairwise_cons.mp h
    rw [insert]
    split
    next hlt =>
      -- in front of all members
      refine List.pairwise_cons.mpr ⟨?_, h⟩
      intro member hmember
      rcases List.mem_cons.mp hmember with rfl | hmember
      · exact hlt
      · exact String.lt_trans hlt (hbelow member hmember)
    next hnlt =>
      split
      next heq =>
        -- in the place of the first member
        subst heq
        exact List.pairwise_cons.mpr ⟨hbelow, hrest⟩
      next hne =>
        -- behind the first member
        refine List.pairwise_cons.mpr ⟨?_, ih hrest⟩
        intro member hmember
        rcases mem_insert hmember with rfl | hmember
        · by_contra hnlt'
          exact hne (eq_of_not_lt hnlt hnlt')
        · exact hbelow member hmember

theorem ascending_insertAll (pairs : List (String × α)) {members : List (String × α)}
    (h : Ascending members) : Ascending (insertAll members pairs) := by
  induction pairs generalizing members with
  | nil => exact h
  | cons pair pairs ih => exact ih (ascending_insert pair.1 pair.2 h)

/-- **Any list of pairs makes a keyed list.** -/
theorem ascending_ofList (pairs : List (String × α)) : Ascending (ofList pairs) :=
  ascending_insertAll pairs List.Pairwise.nil

theorem nodup_of_ascending {members : List (String × α)} (h : Ascending members) :
    (members.map Prod.fst).Nodup := by
  refine List.pairwise_map.mpr (h.imp ?_)
  intro a b hlt heq
  rw [heq] at hlt
  exact String.lt_irrefl _ hlt

/-! ## Looking up -/

theorem lookup_eq_none_of_not_mem {key : String} {members : List (String × α)}
    (h : key ∉ members.map Prod.fst) : members.lookup key = none := by
  rw [List.lookup_eq_none_iff]
  intro member hmember
  have hne : key ≠ member.1 := fun heq => h (heq ▸ List.mem_map_of_mem hmember)
  simpa using hne

theorem mem_of_lookup {key : String} {value : α} {members : List (String × α)}
    (h : members.lookup key = some value) : (key, value) ∈ members := by
  obtain ⟨before, after, rfl, _⟩ := List.lookup_eq_some_iff.mp h
  simp

theorem lookup_of_mem {key : String} {value : α} {members : List (String × α)}
    (h : Ascending members) (hmem : (key, value) ∈ members) : members.lookup key = some value := by
  induction members with
  | nil => contradiction
  | cons pair rest ih =>
    obtain ⟨k, v⟩ := pair
    obtain ⟨hbelow, hrest⟩ := List.pairwise_cons.mp h
    rcases List.mem_cons.mp hmem with heq | hmemRest
    · obtain ⟨rfl, rfl⟩ := Prod.mk.inj heq
      exact List.lookup_cons_self
    · have hne : key ≠ k := by
        rintro rfl
        exact String.lt_irrefl key (hbelow (key, value) hmemRest)
      rw [List.lookup_cons, beq_false_of_ne hne]
      exact ih hrest hmemRest

theorem lookup_insertAll {pairs : List (String × α)} (h : (pairs.map Prod.fst).Nodup)
    (members : List (String × α)) (key : String) :
    (insertAll members pairs).lookup key = (pairs.lookup key).or (members.lookup key) := by
  induction pairs generalizing members with
  | nil => rfl
  | cons pair pairs ih =>
    obtain ⟨k, v⟩ := pair
    obtain ⟨hnotMem, hnodup⟩ := List.nodup_cons.mp h
    have hstep : insertAll members ((k, v) :: pairs) = insertAll (insert k v members) pairs := rfl
    rw [hstep, ih hnodup]
    by_cases hkey : key = k
    · subst hkey
      rw [lookup_insert_self, lookup_eq_none_of_not_mem hnotMem]
      simp
    · rw [lookup_insert_of_ne hkey, List.lookup_cons, beq_false_of_ne hkey]

/-- **A keyed list holds the pairs it is made of**, when no key stands twice. -/
theorem lookup_ofList {pairs : List (String × α)} (h : (pairs.map Prod.fst).Nodup) (key : String) :
    (ofList pairs).lookup key = pairs.lookup key := by
  rw [ofList, lookup_insertAll h]
  simp

/-! ## Keyed lists with the same keys -/

theorem lookup_eq_none_of_below {key : String} {members : List (String × α)}
    (h : ∀ member ∈ members, key < member.1) : members.lookup key = none := by
  refine lookup_eq_none_of_not_mem ?_
  intro hmem
  obtain ⟨member, hmember, rfl⟩ := List.mem_map.mp hmem
  exact String.lt_irrefl _ (h member hmember)

/-- Where the values of each key are related, no first key stands below the other one. -/
theorem not_lt_of_lookup {R : α → β → Prop} {k l : String} {a : α} {b : β}
    {as : List (String × α)} {bs : List (String × β)} (hb : ∀ member ∈ bs, l < member.1)
    (h : ∀ key, Option.Rel R (((k, a) :: as).lookup key) (((l, b) :: bs).lookup key)) :
    ¬k < l := by
  intro hlt
  have hbelow : ∀ member ∈ (l, b) :: bs, k < member.1 := by
    intro member hmember
    rcases List.mem_cons.mp hmember with rfl | hmember
    · exact hlt
    · exact String.lt_trans hlt (hb member hmember)
  have hrel := h k
  rw [List.lookup_cons_self, lookup_eq_none_of_below hbelow] at hrel
  cases hrel

/-- **Keyed lists are related member by member** when the values of each key are related. -/
theorem forall₂_of_lookup {R : α → β → Prop} {as : List (String × α)} {bs : List (String × β)}
    (ha : Ascending as) (hb : Ascending bs)
    (h : ∀ key, Option.Rel R (as.lookup key) (bs.lookup key)) :
    List.Forall₂ (fun a b => a.1 = b.1 ∧ R a.2 b.2) as bs := by
  induction as generalizing bs with
  | nil =>
    cases bs with
    | nil => exact List.Forall₂.nil
    | cons pair bs =>
      have hrel := h pair.1
      rw [List.lookup_nil, List.lookup_cons_self] at hrel
      cases hrel
  | cons pair as ih =>
    obtain ⟨k, a⟩ := pair
    obtain ⟨hbelowA, hrestA⟩ := List.pairwise_cons.mp ha
    cases bs with
    | nil =>
      have hrel := h k
      rw [List.lookup_cons_self, List.lookup_nil] at hrel
      cases hrel
    | cons pair bs =>
      obtain ⟨l, b⟩ := pair
      obtain ⟨hbelowB, hrestB⟩ := List.pairwise_cons.mp hb
      have hflip : ∀ key, Option.Rel (fun b a => R a b) (((l, b) :: bs).lookup key)
          (((k, a) :: as).lookup key) := fun key => Option.rel_flip (h key)
      obtain rfl : k = l :=
        eq_of_not_lt (not_lt_of_lookup hbelowB h) (not_lt_of_lookup hbelowA hflip)
      have hfirst := h k
      rw [List.lookup_cons_self, List.lookup_cons_self] at hfirst
      rcases hfirst with hab | _
      refine List.Forall₂.cons ⟨rfl, hab⟩ (ih hrestA hrestB ?_)
      intro key
      by_cases hkey : key = k
      · subst hkey
        rw [lookup_eq_none_of_below hbelowA, lookup_eq_none_of_below hbelowB]
        exact Option.Rel.none
      · have hrel := h key
        rwa [List.lookup_cons, List.lookup_cons, beq_false_of_ne hkey] at hrel

/-- **A keyed list is determined by what is looked up in it.** -/
theorem eq_of_lookup {as bs : List (String × α)} (ha : Ascending as) (hb : Ascending bs)
    (h : ∀ key, as.lookup key = bs.lookup key) : as = bs := by
  have hmembers := forall₂_of_lookup ha hb (fun key => Option.rel_eq_iff.mpr (h key))
  rw [← List.forall₂_eq_eq_eq]
  exact hmembers.imp (fun _ _ hab => Prod.ext hab.1 hab.2)

/-- A keyed list is the one of its own pairs. -/
theorem ofList_of_ascending {members : List (String × α)} (h : Ascending members) :
    ofList members = members :=
  eq_of_lookup (ascending_ofList members) h (lookup_ofList (nodup_of_ascending h))

end Symbology.Members
