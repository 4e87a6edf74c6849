/-!
# Association maps

A finite map kept as a list of entries.  Insertion replaces the entry of a key
that is present and appends one otherwise, so keys stay distinct and keep the
order in which they were first inserted.  `find?_insert` says what every later
look-up gives.
-/

set_option autoImplicit false

namespace Lineage

/-- Keys with one value each. -/
structure AssocMap (κ α : Type) where
  entries : List (κ × α)
  deriving Repr

namespace AssocMap

variable {κ α : Type} [DecidableEq κ]

def empty : AssocMap κ α := ⟨[]⟩

def size (map : AssocMap κ α) : Nat := map.entries.length

def keys (map : AssocMap κ α) : List κ := map.entries.map Prod.fst

def find? (map : AssocMap κ α) (key : κ) : Option α := map.entries.lookup key

def contains (map : AssocMap κ α) (key : κ) : Bool := (map.find? key).isSome

/-- Replace the entry of the key, or append one. -/
def insertEntry (key : κ) (value : α) : List (κ × α) → List (κ × α)
  | [] => [(key, value)]
  | entry :: rest =>
      if entry.1 = key then (key, value) :: rest else entry :: insertEntry key value rest

def insert (map : AssocMap κ α) (key : κ) (value : α) : AssocMap κ α :=
  ⟨insertEntry key value map.entries⟩

@[simp] theorem find?_empty (key : κ) : (empty : AssocMap κ α).find? key = none := rfl

theorem lookup_insertEntry (entries : List (κ × α)) (key wanted : κ) (value : α) :
    (insertEntry key value entries).lookup wanted =
      if wanted = key then some value else entries.lookup wanted := by
  induction entries with
  | nil =>
      by_cases same : wanted = key
      · simp [insertEntry, same]
      · have differs : (wanted == key) = false := by simpa using same
        simp [insertEntry, List.lookup_cons, same, differs]
  | cons entry rest ih =>
      obtain ⟨held, old⟩ := entry
      by_cases here : held = key
      · subst here
        by_cases same : wanted = held
        · simp [insertEntry, same]
        · have differs : (wanted == held) = false := by simpa using same
          simp [insertEntry, List.lookup_cons, same, differs]
      · by_cases same : wanted = held
        · subst same
          simp [insertEntry, here]
        · have differs : (wanted == held) = false := by simpa using same
          simp [insertEntry, List.lookup_cons, here, differs, ih]

/-- A look-up after an insertion finds the new value at its key and what was
there before at every other. -/
theorem find?_insert (map : AssocMap κ α) (key wanted : κ) (value : α) :
    (map.insert key value).find? wanted =
      if wanted = key then some value else map.find? wanted :=
  lookup_insertEntry map.entries key wanted value

theorem mem_keys_insertEntry (entries : List (κ × α)) (key wanted : κ) (value : α) :
    wanted ∈ (insertEntry key value entries).map Prod.fst ↔
      wanted = key ∨ wanted ∈ entries.map Prod.fst := by
  induction entries with
  | nil => simp [insertEntry]
  | cons entry rest ih =>
      by_cases here : entry.1 = key
      · simp [insertEntry, here]
      · simp only [insertEntry, here, if_false, List.map_cons, List.mem_cons, ih]
        constructor
        · rintro (same | same | same) <;> simp [same]
        · rintro (same | same | same) <;> simp [same]

theorem mem_keys_insert (map : AssocMap κ α) (key wanted : κ) (value : α) :
    wanted ∈ (map.insert key value).keys ↔ wanted = key ∨ wanted ∈ map.keys :=
  mem_keys_insertEntry map.entries key wanted value

theorem nodup_keys_insertEntry (entries : List (κ × α)) (key : κ) (value : α)
    (distinct : (entries.map Prod.fst).Nodup) :
    ((insertEntry key value entries).map Prod.fst).Nodup := by
  induction entries with
  | nil => simp [insertEntry]
  | cons entry rest ih =>
      simp only [List.map_cons, List.nodup_cons] at distinct
      by_cases here : entry.1 = key
      · subst here
        simp [insertEntry, distinct]
      · rw [insertEntry, if_neg here, List.map_cons, List.nodup_cons, mem_keys_insertEntry,
          not_or]
        exact ⟨⟨here, distinct.1⟩, ih distinct.2⟩

theorem nodup_keys_insert (map : AssocMap κ α) (key : κ) (value : α)
    (distinct : map.keys.Nodup) : (map.insert key value).keys.Nodup :=
  nodup_keys_insertEntry map.entries key value distinct

/-- A look-up in values that were changed finds the changed value. -/
theorem lookup_map {β : Type} (change : α → β) (entries : List (κ × α)) (key : κ) :
    (entries.map fun entry => (entry.1, change entry.2)).lookup key =
      (entries.lookup key).map change := by
  induction entries with
  | nil => rfl
  | cons entry rest ih =>
      rw [List.map_cons, List.lookup_cons, List.lookup_cons]
      split
      · rfl
      · exact ih

theorem lookup_zip {keys : List κ} {values : List α} {key : κ} (distinct : keys.Nodup)
    (slot : Nat) (placed : keys[slot]? = some key) :
    (keys.zip values).lookup key = values[slot]? := by
  induction keys generalizing values slot with
  | nil => simp at placed
  | cons first rest ih =>
      obtain ⟨absent, distinctRest⟩ := List.nodup_cons.mp distinct
      cases values with
      | nil => simp
      | cons value values =>
          cases slot with
          | zero =>
              cases placed
              simp
          | succ slot =>
              rw [List.getElem?_cons_succ] at placed
              have differs : (key == first) = false := by
                rw [beq_eq_false_iff_ne]
                rintro rfl
                exact absent (List.mem_of_getElem? placed)
              rw [List.zip_cons_cons, List.lookup_cons, differs, List.getElem?_cons_succ]
              exact ih distinctRest slot placed

end AssocMap

end Lineage
