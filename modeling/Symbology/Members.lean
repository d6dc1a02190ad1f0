set_option autoImplicit false

/-! # Keyed lists

An object (a JSON object, an object at run time, a table of properties) is a list of pairs of a
key and a value, in ascending order of the keys. Order is by code point, which is also the order
of the UTF-8 bytes. Reading one up is `List.lookup`. -/

namespace Symbology.Members

variable {α : Type}

/-- Sets the value of `key`, keeping the list in ascending order of the keys. -/
def insert (key : String) (value : α) : List (String × α) → List (String × α)
  | [] => [(key, value)]
  | (k, v) :: rest =>
    if key < k then (key, value) :: (k, v) :: rest
    else if key = k then (key, value) :: rest
    else (k, v) :: insert key value rest

/-- Sets the members of `pairs` one after another, so that of two with one key the last stays. -/
def insertAll (members pairs : List (String × α)) : List (String × α) :=
  pairs.foldl (fun acc pair => insert pair.1 pair.2 acc) members

/-- The keyed list of `pairs`: sorted, and of two pairs with one key the last. -/
def ofList (pairs : List (String × α)) : List (String × α) :=
  insertAll [] pairs

/-- The keys ascend strictly, so no key stands twice. -/
def Ascending (members : List (String × α)) : Prop :=
  members.Pairwise (fun a b => a.1 < b.1)

/-! ## What setting a member does to reading one up -/

theorem lookup_insert_self (key : String) (value : α) (members : List (String × α)) :
    (insert key value members).lookup key = some value := by
  induction members with
  | nil => simp [insert]
  | cons pair rest ih =>
    obtain ⟨k, v⟩ := pair
    rw [insert]
    split
    · simp
    · split
      · simp
      · rename_i hne
        simp [List.lookup_cons, beq_false_of_ne hne, ih]

theorem lookup_insert_of_ne {key other : String} (h : other ≠ key) (value : α)
    (members : List (String × α)) :
    (insert key value members).lookup other = members.lookup other := by
  induction members with
  | nil => simp [insert, h]
  | cons pair rest ih =>
    obtain ⟨k, v⟩ := pair
    rw [insert]
    split
    · simp [List.lookup_cons, beq_false_of_ne h]
    · split
      · rename_i heq
        subst heq
        simp [List.lookup_cons, beq_false_of_ne h]
      · simp [List.lookup_cons, ih]

end Symbology.Members
