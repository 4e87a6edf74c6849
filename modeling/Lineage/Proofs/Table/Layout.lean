import Mathlib.Data.List.Induction
import Lineage.Proofs.Table.Chain

/-!
# Layouts along a chain

The layout of a class is built by extending that of its parent.  Seen from the
whole chain, the slots are those of the topmost class first (`slots_eq`), no two
slots hold the same field of the same class (`nodup_keys`), and the position of a
field is that of its nearest declaration (`exists_slotOf?`).
-/

set_option autoImplicit false

namespace Lineage

/-- The slots of the fields that a class declares itself. -/
def Class.ownSlots (cls : Class) : List Slot :=
  cls.fields.map fun field => ⟨field.name, cls.id, field.initial⟩

def Class.declaresField (cls : Class) (field : String) : Bool :=
  cls.fields.any fun declared => declared.name = field

/-- What tells the slots of a layout apart. -/
def Slot.key (slot : Slot) : ClassId × String := (slot.declaredBy, slot.name)

/-- The position of the last of the names that is the given one. -/
def lastIndex? (name : String) : List String → Option Nat
  | [] => none
  | first :: rest =>
      match lastIndex? name rest with
      | some index => some (index + 1)
      | none => if name = first then some 0 else none

theorem lastIndex?_append_singleton (name last : String) (names : List String) :
    lastIndex? name (names ++ [last]) =
      if name = last then some names.length else lastIndex? name names := by
  induction names with
  | nil => rfl
  | cons first rest ih =>
      rw [List.cons_append, lastIndex?, ih]
      by_cases isLast : name = last
      · simp [isLast]
      · simp [isLast, lastIndex?]

/-- The name stands at the position and nowhere after it. -/
theorem lastIndex?_eq_some_iff (name : String) (names : List String) (index : Nat) :
    lastIndex? name names = some index ↔
      names[index]? = some name ∧ ∀ later, index < later → names[later]? ≠ some name := by
  -- `lastIndex?` goes through the names from the front, but the last of them decides first
  induction names using List.reverseRecOn with
  | nil => simp [lastIndex?]
  | append_singleton names last ih =>
      rw [lastIndex?_append_singleton]
      by_cases isLast : name = last
      · subst isLast
        have atEnd : (names ++ [name])[names.length]? = some name := by simp
        rw [if_pos rfl, Option.some.injEq]
        constructor
        · rintro rfl
          refine ⟨atEnd, fun later isLater stands => ?_⟩
          have inside := (List.getElem?_eq_some_iff.mp stands).1
          simp at inside
          omega
        · rintro ⟨stands, nothingLater⟩
          have inside := (List.getElem?_eq_some_iff.mp stands).1
          have notBefore : ¬ index < names.length := fun before =>
            nothingLater names.length before atEnd
          simp at inside
          omega
      · have same : ∀ position : Nat, (names ++ [last])[position]? = some name ↔
            names[position]? = some name := by
          intro position
          rw [List.getElem?_append]
          split
          · rfl
          · rename_i outside
            rw [List.getElem?_singleton, List.getElem?_eq_none (Nat.le_of_not_lt outside)]
            split <;> simp [Ne.symm isLast]
        simp only [isLast, if_false, ih, same, ne_eq]

namespace Layout

theorem slotOf?_extend_of_not_any {field : String} {fields : List FieldDecl}
    (undeclared : (fields.any fun declared => declared.name = field) = false) (layout : Layout)
    (owner : ClassId) : (layout.extend owner fields).slotOf? field = layout.slotOf? field := by
  induction fields generalizing layout with
  | nil => rfl
  | cons first rest ih =>
      rw [List.any_cons, Bool.or_eq_false_iff] at undeclared
      obtain ⟨differs, undeclaredRest⟩ := undeclared
      have isOther : field ≠ first.name := fun same => of_decide_eq_false differs same.symm
      have step := ih undeclaredRest (layout.add owner first)
      rw [slotOf?_add, if_neg isOther] at step
      exact step

/-- A field that is declared last of all has its place among the slots of its owner. -/
theorem slotOf?_extend_of_any {field : String} {fields : List FieldDecl}
    (declared : (fields.any fun declared => declared.name = field) = true) (layout : Layout)
    (owner : ClassId) :
    ∃ slot initial, (layout.extend owner fields).slotOf? field = some slot ∧
      (layout.extend owner fields).slots[slot]? = some ⟨field, owner, initial⟩ := by
  induction fields generalizing layout with
  | nil => cases declared
  | cons first rest ih =>
      cases later : rest.any fun declared => declared.name = field with
      | true => exact ih later (layout.add owner first)
      | false =>
          have isFirst : first.name = field := by simpa [later] using declared
          have found := slotOf?_extend_of_not_any later (layout.add owner first) owner
          rw [slotOf?_add, if_pos isFirst.symm] at found
          refine ⟨layout.slots.length, first.initial, found, ?_⟩
          rw [slots_extend, List.getElem?_append_right (Nat.le_refl _), Nat.sub_self, ← isFirst]
          rfl

/-- A field is looked up in the last slot of its name. -/
def Indexed (layout : Layout) : Prop :=
  ∀ field, layout.slotOf? field = lastIndex? field (layout.slots.map (·.name))

theorem indexed_empty : Indexed {} := fun _ => rfl

theorem Indexed.add {layout : Layout} (indexed : layout.Indexed) (owner : ClassId)
    (decl : FieldDecl) : (layout.add owner decl).Indexed := by
  intro field
  rw [slotOf?_add, indexed field, Layout.add, List.map_append, List.map_singleton,
    lastIndex?_append_singleton, List.length_map]

theorem Indexed.extend {layout : Layout} (indexed : layout.Indexed) (owner : ClassId)
    (fields : List FieldDecl) : (layout.extend owner fields).Indexed := by
  induction fields generalizing layout with
  | nil => exact indexed
  | cons field rest ih => exact ih (indexed.add owner field)

end Layout

namespace ClassTable

variable {table : ClassTable} {decls : List ClassDecl} {cls : Class} {chain : List Class}

theorem Chain.slots_eq (holds : table.Holds decls) (chained : table.Chain cls chain)
    (found : table.find? cls.id = some cls) :
    cls.slots = chain.reverse.flatMap Class.ownSlots := by
  induction chained with
  | root isRoot =>
      rw [Class.slots, (holds.root_of_find? found isRoot).2, Layout.slots_extend]
      simp [Class.ownSlots]
  | under inherits upperFound above ih =>
      obtain ⟨upperOwn, _, _, layout⟩ := holds.above_of_find? found inherits upperFound
      have upperSlots := ih upperOwn
      rw [Class.slots] at upperSlots
      rw [Class.slots, layout, Layout.slots_extend, upperSlots]
      simp [Class.ownSlots]

/-- The slots of an ancestor keep their positions. -/
theorem Chain.slots_prefix (holds : table.Holds decls) (chained : table.Chain cls chain)
    (found : table.find? cls.id = some cls) {upper : Class} (inChain : upper ∈ chain) :
    upper.slots <+: cls.slots := by
  obtain ⟨before, after, split, above⟩ := chained.exists_of_mem inChain
  have upperFound := chained.find?_of_mem holds found inChain
  rw [chained.slots_eq holds found, above.slots_eq holds upperFound, split, List.reverse_append,
    List.flatMap_append]
  exact List.prefix_append _ _

theorem Chain.declaredBy_mem (holds : table.Holds decls) (chained : table.Chain cls chain)
    (found : table.find? cls.id = some cls) {slot : Slot} (inSlots : slot ∈ cls.slots) :
    slot.declaredBy ∈ chain.map (·.id) := by
  rw [chained.slots_eq holds found, List.mem_flatMap] at inSlots
  obtain ⟨owner, inChain, own⟩ := inSlots
  obtain ⟨field, _, rfl⟩ := List.mem_map.mp own
  exact List.mem_map_of_mem (List.mem_reverse.mp inChain)

theorem Holds.nodup_ownSlots (holds : table.Holds decls) (found : table.find? cls.id = some cls) :
    (cls.ownSlots.map Slot.key).Nodup := by
  obtain ⟨decl, parent, _, placed⟩ := holds.placed_of_find? found
  have distinct : (cls.fields.map (·.name)).Nodup := by
    rw [placed.made]
    exact placed.distinct.fields
  have keys : cls.ownSlots.map Slot.key = (cls.fields.map (·.name)).map (Prod.mk cls.id) := by
    simp [Class.ownSlots, Slot.key, Function.comp_def]
  rw [keys]
  refine List.Pairwise.map _ ?_ distinct
  intro left right differs same
  exact differs (congrArg Prod.snd same)

theorem Chain.nodup_keys (holds : table.Holds decls) (chained : table.Chain cls chain)
    (found : table.find? cls.id = some cls) : (cls.slots.map Slot.key).Nodup := by
  induction chained with
  | @root cls isRoot =>
      have whole := Chain.slots_eq holds (.root isRoot) found
      rw [List.reverse_singleton, List.flatMap_singleton] at whole
      rw [whole]
      exact holds.nodup_ownSlots found
  | @under cls upper id rest inherits upperFound above ih =>
      have upperOwn := (holds.above_of_find? found inherits upperFound).1
      have whole := Chain.slots_eq holds (.under inherits upperFound above) found
      have distinctIds := Chain.nodup_ids holds (.under inherits upperFound above) found
      rw [List.map_cons, List.nodup_cons] at distinctIds
      rw [List.reverse_cons, List.flatMap_append, List.flatMap_singleton,
        ← above.slots_eq holds upperOwn] at whole
      rw [whole, List.map_append]
      refine List.nodup_append.mpr ⟨ih upperOwn, holds.nodup_ownSlots found, ?_⟩
      intro key inUpper other inOwn same
      subst same
      obtain ⟨slot, isUpper, rfl⟩ := List.mem_map.mp inUpper
      obtain ⟨own, isOwn, sameKey⟩ := List.mem_map.mp inOwn
      obtain ⟨field, _, rfl⟩ := List.mem_map.mp isOwn
      have listed := above.declaredBy_mem holds upperOwn isUpper
      have sameOwner : cls.id = slot.declaredBy := congrArg Prod.fst sameKey
      rw [← sameOwner] at listed
      exact distinctIds.1 listed

theorem Chain.slotOf?_eq_none (holds : table.Holds decls) (chained : table.Chain cls chain)
    (found : table.find? cls.id = some cls) {field : String}
    (undeclared : chain.find? (·.declaresField field) = none) : cls.slotOf? field = none := by
  induction chained with
  | @root cls isRoot =>
      rw [List.find?_singleton] at undeclared
      have undeclaredHere : cls.declaresField field = false := by simpa using undeclared
      rw [Class.slotOf?, (holds.root_of_find? found isRoot).2,
        Layout.slotOf?_extend_of_not_any undeclaredHere]
      rfl
  | @under cls upper id rest inherits upperFound above ih =>
      obtain ⟨upperOwn, _, _, layout⟩ := holds.above_of_find? found inherits upperFound
      cases here : cls.declaresField field with
      | true => simp [here] at undeclared
      | false =>
          rw [List.find?_cons, here] at undeclared
          rw [Class.slotOf?, layout, Layout.slotOf?_extend_of_not_any here]
          exact ih upperOwn undeclared

theorem Chain.exists_slotOf? (holds : table.Holds decls) (chained : table.Chain cls chain)
    (found : table.find? cls.id = some cls) {field : String} {owner : Class}
    (declared : chain.find? (·.declaresField field) = some owner) :
    ∃ slot initial, cls.slotOf? field = some slot ∧
      cls.slots[slot]? = some ⟨field, owner.id, initial⟩ := by
  induction chained with
  | @root cls isRoot =>
      have layout := (holds.root_of_find? found isRoot).2
      cases here : cls.declaresField field with
      | false => simp [here] at declared
      | true =>
          rw [List.find?_cons, here] at declared
          cases declared
          rw [Class.slotOf?, Class.slots, layout]
          exact Layout.slotOf?_extend_of_any here _ _
  | @under cls upper id rest inherits upperFound above ih =>
      obtain ⟨upperOwn, _, _, layout⟩ := holds.above_of_find? found inherits upperFound
      cases here : cls.declaresField field with
      | true =>
          rw [List.find?_cons, here] at declared
          cases declared
          rw [Class.slotOf?, Class.slots, layout]
          exact Layout.slotOf?_extend_of_any here _ _
      | false =>
          rw [List.find?_cons, here] at declared
          obtain ⟨slot, initial, placed, stored⟩ := ih upperOwn declared
          refine ⟨slot, initial, ?_, ?_⟩
          · rw [Class.slotOf?, layout, Layout.slotOf?_extend_of_not_any here]
            exact placed
          · have inside := (List.getElem?_eq_some_iff.mp stored).1
            rw [Class.slots, layout, Layout.slots_extend]
            exact (List.getElem?_append_left inside).trans stored

/-- A class finds a field in the last slot of its name. -/
theorem Chain.indexed (holds : table.Holds decls) (chained : table.Chain cls chain)
    (found : table.find? cls.id = some cls) : cls.layout.Indexed := by
  induction chained with
  | root isRoot =>
      rw [(holds.root_of_find? found isRoot).2]
      exact Layout.indexed_empty.extend _ _
  | under inherits upperFound above ih =>
      obtain ⟨upperOwn, _, _, layout⟩ := holds.above_of_find? found inherits upperFound
      rw [layout]
      exact (ih upperOwn).extend _ _

end ClassTable

end Lineage
