import Lineage.Proofs.Call.Discipline
import Lineage.Proofs.Store.Evolution

/-!
# Closed stores

A store is closed if no live instance holds an object that is not live.  New instances hold
no objects at all and a write adds one object only, so a store stays closed as long as live
objects are written.  With the live numbers held this is a discipline (`closure`), under
which no instance is missed (`closure_unnumbered`).
-/

set_option autoImplicit false

namespace Lineage

/-- A sequence that has a value has one for its first part. -/
theorem exists_of_bind_eq_ok {ε α β : Type} {first : Except ε α} {next : α → Except ε β}
    {last : β} (run : (first >>= next) = .ok last) :
    ∃ value, first = .ok value ∧ next value = .ok last := by
  cases first with
  | error failure => cases run
  | ok value => exact ⟨value, rfl, run⟩

namespace Store

/-- The number stands for an instance. -/
def Live (store : Store) (id : InstanceNo) : Prop := ∃ inst, store.find? id = some inst

/-- The objects that live instances hold are live. -/
def Closed (store : Store) : Prop :=
  ∀ owner inst id, store.find? owner = some inst → .object id ∈ inst.slots → store.Live id

theorem closed_empty : empty.Closed := by
  intro owner inst id live
  rw [find?_empty] at live
  cases live

variable {store : Store}

theorem Lasts.live {later : Store} (lasts : store.Lasts later) {id : InstanceNo}
    (live : store.Live id) : later.Live id := by
  obtain ⟨inst, found⟩ := live
  obtain ⟨now, isNow, _⟩ := lasts.kept id inst found not_false
  exact ⟨now, isNow⟩

theorem live_next (store : Store) (cls : Class) (domain : Domain) :
    (store.allocate cls domain).Live store.next :=
  ⟨.ofClass cls domain, by rw [find?_allocate, if_pos rfl]⟩

theorem Closed.allocate (closed : store.Closed) (cls : Class) (domain : Domain) :
    (store.allocate cls domain).Closed := by
  intro owner inst id live inSlots
  rw [find?_allocate] at live
  split at live
  · cases live
    exact absurd inSlots (Instance.not_object_mem_ofClass cls domain id)
  · exact (evolves_allocate store cls domain).live (closed owner inst id live inSlots)

theorem Closed.write (closed : store.Closed) {changed : Store} {classes : ClassTable}
    {target : InstanceNo} {field : String} {value : Value}
    (valueLive : ∀ id, value = .object id → store.Live id)
    (run : store.write classes target field value = .ok changed) : changed.Closed := by
  obtain ⟨_, inst, slot, live, changes⟩ := find?_of_write run
  intro owner after id nowLive inSlots
  apply (evolves_write run).live
  rw [changes] at nowLive
  split at nowLive
  · cases nowLive
    rcases List.mem_or_eq_of_mem_set inSlots with wasThere | isValue
    · exact closed target inst id live wasThere
    · exact valueLive id isValue.symm
  · exact closed owner after id nowLive inSlots

theorem mem_slots_of_read {inst : Instance} {view : Class} {field : String} {value : Value}
    (run : inst.read view field = .ok value) : value ∈ inst.slots := by
  obtain ⟨slot, _, content⟩ := exists_of_bind_eq_ok run
  split at content
  · rename_i found stored
    cases content
    exact List.mem_of_getElem? stored
  · cases content

theorem Closed.read (closed : store.Closed) {classes : ClassTable} {target id : InstanceNo}
    {field : String} (run : store.read classes target field = .ok (.object id)) :
    store.Live id := by
  obtain ⟨inst, found, run⟩ := exists_of_bind_eq_ok run
  obtain ⟨view, _, run⟩ := exists_of_bind_eq_ok run
  exact closed target inst id ((store.get_eq_ok_iff target inst).mp found) (mem_slots_of_read run)

theorem Closed.readDeclared (closed : store.Closed) {classes : ClassTable}
    {target id : InstanceNo} {declaring field : String}
    (run : store.readDeclared classes target declaring field = .ok (.object id)) :
    store.Live id := by
  obtain ⟨view, _, run⟩ := exists_of_bind_eq_ok run
  obtain ⟨inst, found, run⟩ := exists_of_bind_eq_ok run
  obtain ⟨exact, _, run⟩ := exists_of_bind_eq_ok run
  obtain ⟨below, _, run⟩ := exists_of_bind_eq_ok run
  split at run
  · exact closed target inst id ((store.get_eq_ok_iff target inst).mp found) (mem_slots_of_read run)
  · cases run

theorem find?_of_mem_upTo {last : Nat} {id : InstanceNo} {inst : Instance}
    (listed : (id, inst) ∈ store.upTo last) : store.find? id = some inst := by
  obtain ⟨cell, _, isListed⟩ := List.mem_filterMap.mp listed
  obtain ⟨other, live, same⟩ := Option.map_eq_some_iff.mp isListed
  cases same
  exact live

end Store

/-- A closed store, with its live numbers. -/
def closure : Discipline where
  Valid := Store.Closed
  Held := Store.Live

theorem closure_respected (classes : ClassTable) : closure.Respected classes where
  read _ _ _ _ closed _ run := Store.Closed.read closed run
  write _ _ _ _ _ closed _ valueLive run :=
    ⟨Store.Closed.write closed valueLive run, fun _ live => (Store.evolves_write run).live live⟩
  allocate store cls domain closed :=
    ⟨Store.Closed.allocate closed cls domain,
      fun _ live => (store.evolves_allocate cls domain).live live, store.live_next cls domain⟩

/-- What is held is there, so nothing is missed. -/
theorem closure_unnumbered {α : Type} {gives : α → List Value} {store : Store}
    {effect : Effect α} (kept : closure.Kept gives store effect) : Unnumbered effect.result := by
  intro id missing
  obtain ⟨⟨inst, live⟩, dead⟩ := kept.missed id missing
  rw [dead] at live
  cases live

/-- The objects in the slots of an instance that is looked up are live. -/
theorem closure_keeps_get (id : InstanceNo) :
    closure.Keeps [.object id] Instance.slots (Action.query fun store => store.get id) := by
  intro store closed held
  obtain ⟨inst, live⟩ := held id List.mem_cons_self
  have known := (store.get_eq_ok_iff id inst).mpr live
  refine ⟨closed, fun _ isLive => isLive, ?_, ?_⟩
  · intro other missing
    rw [Action.run_query, known] at missing
    cases missing
  · intro value returned other inSlots
    rw [Action.run_query, known] at returned
    cases returned
    exact closed id inst other live inSlots

end Lineage
