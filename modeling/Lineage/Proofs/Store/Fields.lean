import Mathlib.Tactic.ByContra
import Lineage.Store
import Lineage.Proofs.Table.Grown

/-!
# Reading and writing fields

What it takes for a read or a write to succeed: a live instance, a view of its
class and a slot within the instance.  A successful write changes that one slot
(`find?_of_write`).
-/

set_option autoImplicit false

namespace Lineage

theorem Instance.position_eq_ok_iff (inst : Instance) (view : Class) (field : String)
    (slot : Nat) :
    inst.position view field = .ok slot ↔
      view.id.table = inst.cls.table ∧ view.slotOf? field = some slot ∧
        slot < inst.slots.length := by
  unfold position
  by_cases sameTable : view.id.table = inst.cls.table
  · cases known : view.slotOf? field with
    | none => simp [sameTable, refuse]
    | some found =>
        by_cases inside : found < inst.slots.length
        · simp only [sameTable, inside, if_true, Except.ok.injEq, Option.some.injEq, true_and]
          constructor
          · rintro rfl
            exact ⟨rfl, inside⟩
          · exact fun both => both.1
        · simp only [sameTable, inside, if_true, if_false, Option.some.injEq, true_and]
          constructor
          · intro impossible
            cases impossible
          · rintro ⟨rfl, isInside⟩
            exact absurd isInside inside
  · simp [sameTable, refuse]

/-- Initial values are literals, so a new instance holds no object. -/
theorem Instance.not_object_mem_ofClass (cls : Class) (domain : Domain) (id : InstanceNo) :
    .object id ∉ (Instance.ofClass cls domain).slots := by
  intro inSlots
  obtain ⟨slot, _, same⟩ := List.mem_map.mp inSlots
  have isObject := congrArg Value.object? same
  rw [Literal.object?_value] at isObject
  cases isObject

namespace Store

theorem bounds_of_find? {store : Store} {id : InstanceNo} {inst : Instance}
    (live : store.find? id = some inst) : 0 < id ∧ id < store.next := by
  constructor
  · cases id with
    | zero => cases live
    | succ cell => exact Nat.succ_pos cell
  · by_contra outside
    rw [store.find?_eq_none_of_next_le id (Nat.le_of_not_lt outside)] at live
    cases live

theorem next_le_allocate (store : Store) (cls : Class) (domain : Domain) :
    store.next ≤ (store.allocate cls domain).next := by
  rw [next_allocate]
  exact Nat.le_succ _

theorem get_eq_ok_iff (store : Store) (id : InstanceNo) (inst : Instance) :
    store.get id = .ok inst ↔ store.find? id = some inst := by
  unfold get
  cases store.find? id with
  | none => simp [refuse]
  | some other => simp

theorem read_eq_ok {store : Store} {classes : ClassTable} {id : InstanceNo} {field : String}
    {value : Value} (run : store.read classes id field = .ok value) :
    ∃ inst view slot, store.find? id = some inst ∧ classes.get inst.cls = .ok view ∧
      inst.position view field = .ok slot ∧ inst.slots[slot]? = some value := by
  unfold read at run
  cases live : store.get id with
  | error failure => simp [live, bind, Except.bind] at run
  | ok inst =>
      cases known : classes.get inst.cls with
      | error failure => simp [live, known, bind, Except.bind] at run
      | ok view =>
          cases placed : inst.position view field with
          | error failure => simp [live, known, Instance.read, placed, bind, Except.bind] at run
          | ok slot =>
              cases content : inst.slots[slot]? with
              | none => simp [live, known, Instance.read, placed, content, bind, Except.bind] at run
              | some held =>
                  simp only [live, known, Instance.read, placed, content, bind, Except.bind, pure,
                    Except.pure, Except.ok.injEq] at run
                  subst run
                  exact ⟨inst, view, slot, (store.get_eq_ok_iff id inst).mp live, known, placed,
                    content⟩

theorem write_eq_ok {store changed : Store} {classes : ClassTable} {id : InstanceNo}
    {field : String} {value : Value} (run : store.write classes id field value = .ok changed) :
    ∃ inst view slot, store.find? id = some inst ∧ classes.get inst.cls = .ok view ∧
      inst.position view field = .ok slot ∧
      changed = store.put id (some { inst with slots := inst.slots.set slot value }) := by
  unfold write at run
  cases live : store.get id with
  | error failure => simp [live, bind, Except.bind] at run
  | ok inst =>
      cases known : classes.get inst.cls with
      | error failure => simp [live, known, bind, Except.bind] at run
      | ok view =>
          cases placed : inst.position view field with
          | error failure => simp [live, known, Instance.write, placed, bind, Except.bind] at run
          | ok slot =>
              simp only [live, known, Instance.write, placed, bind, Except.bind, pure,
                Except.pure, Except.ok.injEq] at run
              exact ⟨inst, view, slot, (store.get_eq_ok_iff id inst).mp live, known, placed,
                run.symm⟩

theorem write_eq_map {store : Store} {id : InstanceNo} {inst : Instance}
    (live : store.find? id = some inst) (classes : ClassTable) (field : String) (value : Value) :
    store.write classes id field value =
      (classes.get inst.cls >>= fun view => inst.write view field value).map
        fun changed => store.put id (some changed) := by
  simp only [write, (store.get_eq_ok_iff id inst).mpr live, bind, Except.bind]
  cases classes.get inst.cls with
  | error failure => rfl
  | ok view =>
      simp only
      cases inst.write view field value with
      | error failure => rfl
      | ok changed => rfl

/-- A write changes one slot of one instance and no number. -/
theorem find?_of_write {store changed : Store} {classes : ClassTable} {id : InstanceNo}
    {field : String} {value : Value} (run : store.write classes id field value = .ok changed) :
    changed.next = store.next ∧ ∃ inst slot, store.find? id = some inst ∧
      ∀ other, changed.find? other =
        if other = id then some { inst with slots := inst.slots.set slot value }
        else store.find? other := by
  obtain ⟨inst, view, slot, live, _, _, rfl⟩ := write_eq_ok run
  obtain ⟨positive, given⟩ := bounds_of_find? live
  exact ⟨store.next_put id _, inst, slot, live,
    fun other => store.find?_put id other _ positive given⟩

end Store

end Lineage
