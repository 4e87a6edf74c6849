import Lineage.Proofs.Call.Discipline
import Lineage.Proofs.Store.Fields

/-!
# Confinement

A call can touch what its receiver and arguments reach through slots, and what
is allocated from then on, and nothing else.  The discipline behind it holds a
number if it was reachable when the call began or has been given out since;
live instances of held numbers hold held numbers only, and all others are as
they were.
-/

set_option autoImplicit false

namespace Lineage

/-- The least set of numbers that holds the objects among the roots and, with a
live instance, the objects in its slots. -/
inductive Reachable (store : Store) (roots : List Value) : InstanceNo → Prop where
  | root {id : InstanceNo} (isRoot : .object id ∈ roots) : Reachable store roots id
  | slot {owner id : InstanceNo} {inst : Instance} (reached : Reachable store roots owner)
      (live : store.find? owner = some inst) (held : .object id ∈ inst.slots) :
      Reachable store roots id

namespace Confinement

variable (start : Store) (roots : List Value)

/-- A number that was reachable at the start or has been given out since. -/
def Held (store : Store) (id : InstanceNo) : Prop :=
  Reachable start roots id ∨ start.next ≤ id ∧ id < store.next

structure Valid (store : Store) : Prop where
  grown : start.next ≤ store.next
  /-- Instances stay live, keep class and domain, and change only if they were
  reachable. -/
  kept : ∀ id inst, start.find? id = some inst → ∃ after, store.find? id = some after ∧
    after.cls = inst.cls ∧ after.domain = inst.domain ∧
    (¬ Reachable start roots id → after = inst)
  contained : ∀ owner inst id, Held start roots store owner → store.find? owner = some inst →
    .object id ∈ inst.slots → Held start roots store id

def discipline : Discipline where
  Valid := Valid start roots
  Held := Held start roots

variable {start roots}

theorem valid_start : Valid start roots start where
  grown := Nat.le_refl _
  kept id inst live := ⟨inst, live, rfl, rfl, fun _ => rfl⟩
  contained owner inst id held live inSlots := by
    rcases held with reached | ⟨since, before⟩
    · exact Or.inl (reached.slot live inSlots)
    · exact absurd since (Nat.not_le_of_lt before)

theorem held_of_next_le {store later : Store} (grown : store.next ≤ later.next)
    {id : InstanceNo} (held : Held start roots store id) : Held start roots later id := by
  rcases held with reached | ⟨since, before⟩
  · exact Or.inl reached
  · exact Or.inr ⟨since, Nat.lt_of_lt_of_le before grown⟩

theorem valid_allocate {store : Store} (valid : Valid start roots store) (cls : Class)
    (domain : Domain) : Valid start roots (store.allocate cls domain) := by
  refine ⟨?_, ?_, ?_⟩
  · rw [Store.next_allocate]
    exact Nat.le_succ_of_le valid.grown
  · intro id inst live
    obtain ⟨after, nowLive, sameClass, sameDomain, unreached⟩ := valid.kept id inst live
    have older : id ≠ store.next := Nat.ne_of_lt (Store.bounds_of_find? nowLive).2
    exact ⟨after, by rw [Store.find?_allocate, if_neg older, nowLive], sameClass, sameDomain,
      unreached⟩
  · intro owner inst id ownerHeld live inSlots
    rw [Store.find?_allocate] at live
    split at live
    · cases live
      exact absurd inSlots (Instance.not_object_mem_ofClass cls domain id)
    · rename_i older
      have wasHeld : Held start roots store owner := by
        rcases ownerHeld with reached | ⟨since, before⟩
        · exact Or.inl reached
        · rw [Store.next_allocate] at before
          exact Or.inr ⟨since, Nat.lt_of_le_of_ne (Nat.le_of_lt_succ before) older⟩
      have held := valid.contained owner inst id wasHeld live inSlots
      exact held_of_next_le (store.next_le_allocate cls domain) held

theorem valid_write {store changed : Store} {classes : ClassTable} {target : InstanceNo}
    {field : String} {value : Value} (valid : Valid start roots store)
    (targetHeld : Held start roots store target)
    (valueHeld : ∀ id, value = .object id → Held start roots store id)
    (written : store.write classes target field value = .ok changed) :
    Valid start roots changed := by
  obtain ⟨sameNext, inst, slot, live, changes⟩ := Store.find?_of_write written
  have sameHeld : ∀ id, Held start roots changed id ↔ Held start roots store id := by
    intro id
    simp only [Held, sameNext]
  refine ⟨sameNext ▸ valid.grown, ?_, ?_⟩
  · intro id old wasLive
    obtain ⟨after, nowLive, sameClass, sameDomain, unreached⟩ := valid.kept id old wasLive
    by_cases isTarget : id = target
    · subst isTarget
      have reached : Reachable start roots id := by
        rcases targetHeld with reached | ⟨since, _⟩
        · exact reached
        · exact absurd since (Nat.not_le_of_lt (Store.bounds_of_find? wasLive).2)
      rw [live] at nowLive
      cases nowLive
      exact ⟨_, (changes id).trans (if_pos rfl), sameClass, sameDomain,
        fun outside => absurd reached outside⟩
    · exact ⟨after, by rw [changes, if_neg isTarget, nowLive], sameClass, sameDomain, unreached⟩
  · intro owner after id ownerHeld nowLive inSlots
    rw [sameHeld] at ownerHeld ⊢
    rw [changes] at nowLive
    split at nowLive
    · rename_i isTarget
      subst isTarget
      cases nowLive
      rcases List.mem_or_eq_of_mem_set inSlots with wasThere | isValue
      · exact valid.contained owner inst id ownerHeld live wasThere
      · exact valueHeld id isValue.symm
    · exact valid.contained owner after id ownerHeld nowLive inSlots

theorem respected (classes : ClassTable) : (discipline start roots).Respected classes where
  read store target field id valid targetHeld read := by
    obtain ⟨inst, view, slot, live, _, _, content⟩ := Store.read_eq_ok read
    exact valid.contained target inst id targetHeld live (List.mem_of_getElem? content)
  write store target field value changed valid targetHeld valueHeld written := by
    refine ⟨valid_write valid targetHeld valueHeld written, ?_⟩
    intro id held
    exact held_of_next_le (Nat.le_of_eq (Store.find?_of_write written).1.symm) held
  allocate store cls domain valid := by
    refine ⟨valid_allocate valid cls domain,
      fun id held => held_of_next_le (store.next_le_allocate cls domain) held, ?_⟩
    refine Or.inr ⟨valid.grown, ?_⟩
    rw [Store.next_allocate]
    exact Nat.lt_succ_self _

end Confinement

namespace Dispatcher

/-- What a call does to a store is confined to what its receiver and arguments
reach in the store and to what is allocated during the call. -/
theorem invoke_confined (hierarchy : Hierarchy) (isSealed : hierarchy.Sealed)
    (plain : hierarchy.Plain) (options : Options) (store : Store) (reference : Reference)
    (signature : Signature) (args : List Value) :
    let dispatcher : Dispatcher := ⟨hierarchy, options⟩
    let effect := dispatcher.invoke reference signature args store
    let Inside := Reachable store (.object reference.target :: args)
    let Allowed := fun id => Inside id ∨ store.next ≤ id
    (∀ id inst, store.find? id = some inst → ∃ after, effect.store.find? id = some after ∧
      after.cls = inst.cls ∧ after.domain = inst.domain ∧
      (¬ Inside id → after.slots = inst.slots)) ∧
    (∀ id, effect.result = .ok (.object id) → Allowed id) ∧
    (∀ owner inst id, Allowed owner → effect.store.find? owner = some inst →
      .object id ∈ inst.slots → Allowed id) := by
  intro dispatcher effect Inside Allowed
  obtain ⟨accepted, flat⟩ := isSealed.exists_flat
  have rootsHeld : ∀ id, .object id ∈ Value.object reference.target :: args →
      Confinement.Held store (.object reference.target :: args) store id := by
    intro id isRoot
    exact Or.inl (.root isRoot)
  have allowed_of_held : ∀ later id,
      Confinement.Held store (.object reference.target :: args) later id → Allowed id := by
    intro later id held
    exact held.imp_right And.left
  obtain ⟨valid, _, gives⟩ :=
    keeps_invoke (Confinement.respected hierarchy.classes) flat plain options reference signature
      args store Confinement.valid_start rootsHeld
  refine ⟨?_, ?_, ?_⟩
  · intro id inst live
    obtain ⟨after, nowLive, sameClass, sameDomain, unreached⟩ := valid.kept id inst live
    exact ⟨after, nowLive, sameClass, sameDomain, fun outside => by rw [unreached outside]⟩
  · intro id returned
    exact allowed_of_held _ id (gives id returned)
  · intro owner inst id ownerAllowed live inSlots
    have given := (Store.bounds_of_find? live).2
    have ownerHeld := ownerAllowed.imp_right fun since => And.intro since given
    exact allowed_of_held _ id (valid.contained owner inst id ownerHeld live inSlots)

/-- A failing call leaves an instance alone that its receiver does not reach. -/
theorem grow_confined :
    sampleHierarchy.Sealed ∧ sampleHierarchy.Plain ∧
      ∃ after, (Dispatcher.invoke ⟨sampleHierarchy, {}⟩ ⟨1, ⟨1, 0⟩⟩ ⟨"grow", 0⟩ []
        sampleStore).store.find? 3 = some after ∧
        after.slots = [.object 2, .str "node", .str "leaf"] := by
  have onlyReceiver : ∀ id, Reachable sampleStore [.object 1] id → id = 1 := by
    intro id reached
    induction reached with
    | root isRoot => simpa using isRoot
    | slot _ live held ownerIsReceiver =>
        subst ownerIsReceiver
        cases live
        simp at held
  have unreached : ¬ Reachable sampleStore [.object 1] 3 := by
    intro reached
    cases onlyReceiver 3 reached
  obtain ⟨kept, _, _⟩ := invoke_confined sampleHierarchy sampleHierarchy_sealed
    sampleHierarchy_plain {} sampleStore ⟨1, ⟨1, 0⟩⟩ ⟨"grow", 0⟩ []
  obtain ⟨after, live, _, _, unchanged⟩ := kept 3 _ rfl
  exact ⟨sampleHierarchy_sealed, sampleHierarchy_plain, after, live, unchanged unreached⟩

end Dispatcher

end Lineage
