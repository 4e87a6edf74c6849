import Lineage.Proofs.Naive.Lineage
import Lineage.Proofs.Store.Typing

/-!
# Instances as objects

What the interpreter takes a store for: every instance becomes an object whose
fields are its slots, each under the name of the class that declares it.  The
store has to be typed for that, which allocations and writes keep.
-/

set_option autoImplicit false

namespace Lineage

def ClassTable.nameOf (table : ClassTable) (id : ClassId) : String :=
  match table.find? id with
  | some cls => cls.name
  | none => id.text

theorem ClassTable.nameOf_of_find? {table : ClassTable} {id : ClassId} {cls : Class}
    (found : table.find? id = some cls) : table.nameOf id = cls.name := by
  simp [nameOf, found]

namespace AssocMap

variable {κ α : Type} [DecidableEq κ] {keys : List κ} {values : List α} {key : κ}

theorem insertEntry_zip (distinct : keys.Nodup) (sameLength : keys.length = values.length)
    (slot : Nat) (placed : keys[slot]? = some key) (value : α) :
    insertEntry key value (keys.zip values) = keys.zip (values.set slot value) := by
  induction keys generalizing values slot with
  | nil => simp at placed
  | cons first rest ih =>
      obtain ⟨absent, distinctRest⟩ := List.nodup_cons.mp distinct
      cases values with
      | nil => simp at sameLength
      | cons old values =>
          cases slot with
          | zero =>
              cases placed
              simp [insertEntry]
          | succ slot =>
              rw [List.getElem?_cons_succ] at placed
              have differs : first ≠ key := by
                rintro rfl
                exact absent (List.mem_of_getElem? placed)
              rw [List.zip_cons_cons, insertEntry, if_neg differs, List.set_cons_succ,
                List.zip_cons_cons, ih distinctRest (by simpa using sameLength) slot placed]

end AssocMap

namespace Naive

def keyOf (table : ClassTable) (slot : Slot) : Key := (table.nameOf slot.declaredBy, slot.name)

def keys (table : ClassTable) (cls : Class) : List Key := cls.slots.map (keyOf table)

def Object.ofInstance (table : ClassTable) (inst : Instance) : Object where
  cls := table.nameOf inst.cls
  domain := inst.domain
  fields := ⟨((table.find? inst.cls).elim [] (keys table)).zip inst.slots⟩

/-- The store as the interpreter sees it. -/
def Heap.ofStore (table : ClassTable) (store : Store) : Heap where
  next := store.next
  objects := fun id => (store.find? id).map (Object.ofInstance table)

def Typed (table : ClassTable) (store : Store) : Prop :=
  ∀ id inst, store.find? id = some inst → ∃ cls, Fits table inst cls

section Objects
variable {table : ClassTable} {decls : List ClassDecl} {cls : Class} {chain : List Class}
  {inst : Instance}

theorem cls_of_fits (fits : Fits table inst cls) :
    (Object.ofInstance table inst).cls = cls.name :=
  ClassTable.nameOf_of_find? fits.found

theorem fields_of_fits (fits : Fits table inst cls) :
    (Object.ofInstance table inst).fields = ⟨(keys table cls).zip inst.slots⟩ := by
  simp [Object.ofInstance, fits.found]

theorem nodup_keys (holds : table.Holds decls) (chained : table.Chain cls chain)
    (found : table.find? cls.id = some cls) : (keys table cls).Nodup := by
  have distinct := chained.nodup_keys holds found
  have whole : keys table cls =
      (cls.slots.map Slot.key).map fun key => (table.nameOf key.1, key.2) := by
    simp [keys, keyOf, Slot.key, Function.comp_def]
  rw [whole]
  refine List.Nodup.map_on ?_ distinct
  intro left leftIn right rightIn same
  obtain ⟨leftSlot, leftListed, rfl⟩ := List.mem_map.mp leftIn
  obtain ⟨rightSlot, rightListed, rfl⟩ := List.mem_map.mp rightIn
  -- different classes of the table have different names
  obtain ⟨leftOwner, leftChain, leftId⟩ :=
    List.mem_map.mp (chained.declaredBy_mem holds found leftListed)
  obtain ⟨rightOwner, rightChain, rightId⟩ :=
    List.mem_map.mp (chained.declaredBy_mem holds found rightListed)
  have leftFound := chained.find?_of_mem holds found leftChain
  have rightFound := chained.find?_of_mem holds found rightChain
  have sameName : leftOwner.name = rightOwner.name := by
    have names := congrArg Prod.fst same
    simp only [Slot.key, ← leftId, ← rightId] at names
    rwa [ClassTable.nameOf_of_find? leftFound, ClassTable.nameOf_of_find? rightFound] at names
  have sameOwner := holds.eq_of_name_eq leftFound rightFound sameName
  have sameField : leftSlot.name = rightSlot.name := (Prod.ext_iff.mp same).2
  simp only [Slot.key, ← leftId, ← rightId, sameOwner, sameField]

theorem ofInstance_ofClass (holds : table.Holds decls) (chained : table.Chain cls chain)
    (found : table.find? cls.id = some cls) (domain : Domain) :
    Object.ofInstance table (.ofClass cls domain) = fresh decls cls.name domain := by
  have corresponds := made_lineage holds chained found
  have entries : (cls.slots.map fun slot => (keyOf table slot, slot.initial.value)) =
      (lineage decls cls.name).reverse.flatMap seed := by
    rw [chained.slots_eq holds found]
    generalize lineage decls cls.name = line at corresponds ⊢
    clear chained
    induction corresponds with
    | nil => rfl
    | @cons first decl rest line made _ ih =>
        have own : first.ownSlots.map (fun slot => (keyOf table slot, slot.initial.value)) =
            seed decl := by
          simp [Class.ownSlots, seed, keyOf, ClassTable.nameOf_of_find? made.found, made.fields,
            made.name, Function.comp_def]
        rw [List.reverse_cons, List.flatMap_append, List.map_append, ih, List.flatMap_singleton,
          own, List.reverse_cons, List.flatMap_append, List.flatMap_singleton]
  have fits := fits_ofClass found domain
  have fields := fields_of_fits fits
  rw [keys, Instance.ofClass, List.zip_map', entries] at fields
  have name := cls_of_fits fits
  simp only [Object.ofInstance, fresh] at fields name ⊢
  rw [name, ← fields]
  rfl

theorem position_of_owner (holds : table.Holds decls) (chained : table.Chain cls chain)
    (fits : Fits table inst cls) {view : Class} (inChain : view ∈ chain)
    {viewChain : List Class} (viewChained : table.Chain view viewChain) {field : String}
    {owner : Class} (declared : viewChain.find? (·.declaresField field) = some owner) :
    ∃ slot, inst.position view field = .ok slot ∧ slot < inst.slots.length ∧
      (keys table cls)[slot]? = some (owner.name, field) := by
  obtain ⟨slot, initial, placed, inside, inExact⟩ :=
    fits.exists_position holds chained inChain viewChained declared
  have viewFound := chained.find?_of_mem holds (fits.own holds) inChain
  have ownerFound := viewChained.find?_of_mem holds viewFound (List.mem_of_find?_eq_some declared)
  refine ⟨slot, placed, inside, ?_⟩
  rw [keys, List.getElem?_map, inExact, Option.map_some, keyOf,
    ClassTable.nameOf_of_find? ownerFound]

theorem find?_fields (holds : table.Holds decls) (chained : table.Chain cls chain)
    (fits : Fits table inst cls) {slot : Nat} {key : Key}
    (placed : (keys table cls)[slot]? = some key) :
    (Object.ofInstance table inst).fields.find? key = inst.slots[slot]? := by
  rw [fields_of_fits fits]
  exact AssocMap.lookup_zip (nodup_keys holds chained (fits.own holds)) slot placed

theorem ofInstance_set (holds : table.Holds decls) (chained : table.Chain cls chain)
    (fits : Fits table inst cls) {slot : Nat} {key : Key}
    (placed : (keys table cls)[slot]? = some key) (value : Value) :
    Object.ofInstance table { inst with slots := inst.slots.set slot value } =
      { Object.ofInstance table inst with
        fields := (Object.ofInstance table inst).fields.insert key value } := by
  have sameLength : (keys table cls).length = inst.slots.length := by
    rw [keys, List.length_map, fits.length]
  have entries := AssocMap.insertEntry_zip (nodup_keys holds chained (fits.own holds)) sameLength
    slot placed value
  rw [fields_of_fits fits, AssocMap.insert, entries, ← fields_of_fits (fits.set slot value)]
  rfl

/-! ## Stores as heaps -/

variable {store : Store}

theorem ofStore_empty (table : ClassTable) : Heap.ofStore table .empty = .empty := by
  simp only [Heap.ofStore, Heap.empty, Store.find?_empty, Option.map_none]
  rfl

theorem typed_empty (table : ClassTable) : Typed table .empty := by
  intro id inst live
  simp at live

theorem ofStore_allocate (holds : table.Holds decls) (chained : table.Chain cls chain)
    (found : table.find? cls.id = some cls) (domain : Domain) :
    Heap.ofStore table (store.allocate cls domain) =
      (Heap.ofStore table store).add (fresh decls cls.name domain) := by
  apply Heap.ext
  · exact store.next_allocate cls domain
  · funext id
    change ((store.allocate cls domain).find? id).map (Object.ofInstance table) =
      if id = store.next then some (fresh decls cls.name domain)
      else (store.find? id).map (Object.ofInstance table)
    rw [Store.find?_allocate]
    split
    · rw [Option.map_some, ofInstance_ofClass holds chained found]
    · rfl

theorem typed_allocate (typed : Typed table store) (found : table.find? cls.id = some cls)
    (domain : Domain) : Typed table (store.allocate cls domain) := by
  intro id inst live
  rw [Store.find?_allocate] at live
  split at live
  · cases live
    exact ⟨cls, fits_ofClass found domain⟩
  · exact typed id inst live

section Changes
variable {id : InstanceNo} {old : Instance} (live : store.find? id = some old)
include live

theorem ofStore_put (content : Option Instance) :
    Heap.ofStore table (store.put id content) =
      (Heap.ofStore table store).put id (content.map (Object.ofInstance table)) := by
  obtain ⟨positive, given⟩ := Store.bounds_of_find? live
  apply Heap.ext
  · exact store.next_put id content
  · funext other
    change ((store.put id content).find? other).map (Object.ofInstance table) =
      if other = id then content.map (Object.ofInstance table)
      else (store.find? other).map (Object.ofInstance table)
    rw [Store.find?_put store id other content positive given]
    split <;> rfl

theorem typed_put (typed : Typed table store) (content : Option Instance)
    (fits : ∀ inst, content = some inst → ∃ cls, Fits table inst cls) :
    Typed table (store.put id content) := by
  obtain ⟨positive, given⟩ := Store.bounds_of_find? live
  intro other inst nowLive
  rw [Store.find?_put store id other content positive given] at nowLive
  split at nowLive
  · exact fits inst nowLive
  · exact typed other inst nowLive

end Changes

end Objects

end Naive

end Lineage
