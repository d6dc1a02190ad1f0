import Mathlib.Data.List.Forall2
import Mathlib.Data.List.SplitBy

set_option autoImplicit false

/-! # Related lists and options

Lists that are related item by item, and options that are related if they hold something. -/

/-! ## Lists -/

theorem List.Forall₂.imp_of_mem {α β : Type} {R S : α → β → Prop} {as : List α}
    {bs : List β} (h : List.Forall₂ R as bs) (himp : ∀ a ∈ as, ∀ b ∈ bs, R a b → S a b) :
    List.Forall₂ S as bs := by
  rw [List.forall₂_iff_zip] at h ⊢
  refine ⟨h.1, fun {a b} hab => ?_⟩
  obtain ⟨ha, hb⟩ := List.of_mem_zip hab
  exact himp a ha b hb (h.2 hab)

/-- Each item on the right is related to one on the left. -/
theorem List.Forall₂.exists_of_mem_right {α β : Type} {R : α → β → Prop} {as : List α} {bs : List β}
    (h : List.Forall₂ R as bs) {b : β} (hb : b ∈ bs) : ∃ a ∈ as, R a b := by
  induction h with
  | nil => exact absurd hb List.not_mem_nil
  | @cons a b' as bs hab _ ih =>
    rcases List.mem_cons.mp hb with rfl | hrest
    · exact ⟨a, List.mem_cons_self, hab⟩
    · obtain ⟨a', ha', hab'⟩ := ih hrest
      exact ⟨a', List.mem_cons_of_mem a ha', hab'⟩

/-- Where each item is related to something, there is a list that is related item by item. -/
theorem List.exists_forall₂ {α β : Type} {R : α → β → Prop} {as : List α}
    (h : ∀ a ∈ as, ∃ b, R a b) : ∃ bs, List.Forall₂ R as bs := by
  induction as with
  | nil => exact ⟨[], .nil⟩
  | cons a as ih =>
    obtain ⟨hfirst, hrest⟩ := List.forall_mem_cons.mp h
    obtain ⟨b, hab⟩ := hfirst
    obtain ⟨bs, hbs⟩ := ih hrest
    exact ⟨b :: bs, .cons hab hbs⟩

/-- A relation that goes through things in between does so item by item. -/
theorem List.Forall₂.exists_between {α β γ : Type} {R : α → γ → Prop} {S : α → β → Prop}
    {T : β → γ → Prop} {as : List α} {cs : List γ} (h : List.Forall₂ R as cs)
    (hbetween : ∀ a, ∀ c ∈ cs, R a c → ∃ b, S a b ∧ T b c) :
    ∃ bs, List.Forall₂ S as bs ∧ List.Forall₂ T bs cs := by
  induction h with
  | nil => exact ⟨[], .nil, .nil⟩
  | @cons a c as cs hac _ ih =>
    obtain ⟨b, hab, hbc⟩ := hbetween a c List.mem_cons_self hac
    obtain ⟨bs, hS, hT⟩ := ih (fun a c hc => hbetween a c (List.mem_cons_of_mem _ hc))
    exact ⟨b :: bs, .cons hab hS, .cons hbc hT⟩

/-- Two relations of lists item by item make one. -/
theorem List.Forall₂.comp {α β γ : Type} {R : α → β → Prop} {S : β → γ → Prop} {as : List α}
    {bs : List β} {cs : List γ} (hR : List.Forall₂ R as bs) (hS : List.Forall₂ S bs cs) :
    List.Forall₂ (Relation.Comp R S) as cs := by
  induction hR generalizing cs with
  | nil =>
    cases hS
    exact .nil
  | cons hab _ ih =>
    cases hS with
    | cons hbc hrest => exact .cons ⟨_, hab, hbc⟩ (ih hrest)

/-- Searching two lists with tests that agree finds related items. -/
theorem List.Forall₂.find? {α β : Type} {R : α → β → Prop} {p : α → Bool} {q : β → Bool}
    {as : List α} {bs : List β} (h : List.Forall₂ (fun a b => p a = q b ∧ R a b) as bs) :
    Option.Rel R (as.find? p) (bs.find? q) := by
  induction h with
  | nil => exact .none
  | @cons a b as bs hab _ ih =>
    obtain ⟨htests, hrelated⟩ := hab
    rw [List.find?_cons, List.find?_cons, htests]
    cases q b with
    | true => exact .some hrelated
    | false => exact ih

/-- Two tables with the same keys hold related items under each key. -/
theorem List.Forall₂.lookup {κ α β : Type} [BEq κ] {R : α → β → Prop} {as : List (κ × α)}
    {bs : List (κ × β)} (h : List.Forall₂ (fun a b => a.1 = b.1 ∧ R a.2 b.2) as bs) (key : κ) :
    Option.Rel R (as.lookup key) (bs.lookup key) := by
  induction h with
  | nil => exact .none
  | @cons a b as bs hab _ ih =>
    obtain ⟨hkeys, hrelated⟩ := hab
    rw [List.lookup_cons, List.lookup_cons, hkeys]
    cases key == b.1 with
    | true => exact .some hrelated
    | false => exact ih

/-- A function that may fail has results for a whole list when it has one for each item. -/
theorem List.mapM_eq_some_iff {α β : Type} {f : α → Option β} {as : List α} {bs : List β} :
    as.mapM f = some bs ↔ List.Forall₂ (fun a b => f a = some b) as bs := by
  induction as generalizing bs with
  | nil => cases bs <;> simp
  | cons a as ih =>
    simp only [List.mapM_cons, Option.bind_eq_bind, Option.bind_eq_some_iff, Option.pure_def,
      Option.some.injEq, ih]
    constructor
    · rintro ⟨b, hb, bs, hbs, rfl⟩
      exact .cons hb hbs
    · intro h
      cases h with
      | cons hb hbs => exact ⟨_, hb, _, hbs, rfl⟩

/-! ## Splitting related lists -/

/-- A part that goes on to the left. -/
theorem List.splitBy_cons_of_rel {α : Type} {r : α → α → Bool} {a b : α} {l run : List α}
    {others : List (List α)} (hab : r a b = true) (h : (b :: l).splitBy r = run :: others) :
    (a :: b :: l).splitBy r = (a :: run) :: others := by
  obtain ⟨hflatten, hnil, hchain, hbreaks⟩ := List.splitBy_eq_iff.mp h
  cases run with
  | nil => exact absurd List.mem_cons_self hnil
  | cons c run =>
    obtain ⟨rfl, hrest⟩ := List.cons.inj hflatten
    have hfirst : (b :: run).IsChain (fun x y => r x y) := hchain _ List.mem_cons_self
    rw [List.isChain_cons] at hbreaks
    refine List.splitBy_eq_iff.mpr ⟨by rw [hrest]; rfl, ?_, ?_, ?_⟩
    · exact fun hmem => hnil (List.mem_cons_of_mem _ (by simpa using hmem))
    · rw [List.forall_mem_cons]
      exact ⟨hfirst.cons_cons hab, fun m hm => hchain m (List.mem_cons_of_mem _ hm)⟩
    · rw [List.isChain_cons]
      refine ⟨fun next hnext => ?_, hbreaks.2⟩
      obtain ⟨_, hne, hbreak⟩ := hbreaks.1 next hnext
      exact ⟨List.cons_ne_nil _ _, hne, by rwa [List.getLast_cons (List.cons_ne_nil _ _)]⟩

/-- A part that ends at once. -/
theorem List.splitBy_cons_of_not_rel {α : Type} {r : α → α → Bool} {a b : α} {l : List α}
    (hab : ¬r a b = true) : (a :: b :: l).splitBy r = [a] :: (b :: l).splitBy r := by
  rw [← List.singleton_append, List.splitBy_append (by simpa using hab)]
  rfl

/-- Lists that are related item by item are split at the same places. -/
theorem List.Forall₂.splitBy {α β : Type} {R : α → β → Prop} {r : α → α → Bool}
    {s : β → β → Bool} (hrel : ∀ {a a' b b'}, R a b → R a' b' → r a a' = s b b') {as : List α}
    {bs : List β} (h : List.Forall₂ R as bs) :
    List.Forall₂ (List.Forall₂ R) (as.splitBy r) (bs.splitBy s) := by
  induction h with
  | nil => exact .nil
  | @cons a b as bs hab hrest ih =>
    cases hrest with
    | nil => exact .cons (.cons hab .nil) .nil
    | @cons a' b' as bs hab' hrest =>
      by_cases hsame : r a a' = true
      · -- the first part of the rest grows by one item
        generalize hsplitA : (a' :: as).splitBy r = partsA at ih
        generalize hsplitB : (b' :: bs).splitBy s = partsB at ih
        cases ih with
        | nil => exact absurd hsplitA (by simp)
        | cons hpart hparts =>
          rw [List.splitBy_cons_of_rel hsame hsplitA,
            List.splitBy_cons_of_rel ((hrel hab hab').symm.trans hsame) hsplitB]
          exact .cons (.cons hab hpart) hparts
      · rw [List.splitBy_cons_of_not_rel hsame,
          List.splitBy_cons_of_not_rel (mt (hrel hab hab').trans hsame)]
        exact .cons (.cons hab .nil) ih

/-! ## Options -/

theorem Option.rel_flip {α β : Type} {R : α → β → Prop} {a : Option α} {b : Option β}
    (h : Option.Rel R a b) : Option.Rel (fun b a => R a b) b a := by
  cases h with
  | some hab => exact Option.Rel.some hab
  | none => exact Option.Rel.none

theorem Option.rel_eq_iff {α : Type} {a b : Option α} : Option.Rel (· = ·) a b ↔ a = b := by
  constructor
  · rintro (rfl | _) <;> rfl
  · rintro rfl
    cases a with
    | none => exact Option.Rel.none
    | some x => exact Option.Rel.some rfl

theorem Option.Rel.imp_of_mem {α β : Type} {R S : α → β → Prop} {a : Option α}
    {b : Option β} (h : Option.Rel R a b) (himp : ∀ x ∈ a, ∀ y ∈ b, R x y → S x y) :
    Option.Rel S a b := by
  cases h with
  | some hab => exact Option.Rel.some (himp _ rfl _ rfl hab)
  | none => exact Option.Rel.none

theorem Option.rel_map_iff {α β γ δ : Type} {R : γ → δ → Prop} {f : α → γ} {g : β → δ}
    {a : Option α} {b : Option β} :
    Option.Rel R (a.map f) (b.map g) ↔ Option.Rel (fun x y => R (f x) (g y)) a b := by
  constructor
  · intro h
    cases a <;> cases b <;> cases h
    · exact Option.Rel.none
    · exact Option.Rel.some ‹_›
  · rintro (h | _)
    · exact Option.Rel.some h
    · exact Option.Rel.none
