import Lineage.Proofs.Store.Evolution

/-!
# The ledger of a store

Every allocation and every release is reported, so the events of a store's history are a
ledger of it: the numbers that were allocated are 1, 2, 3 and so on, replaying the events
gives the live numbers, and no number that was released stands for anything (`Ledger`).
The entries are those of single steps (`Ledger.write`, `Ledger.allocate`,
`Ledger.release`), and `Ledger.course` adds those of a call, whether it succeeds or fails.
-/

set_option autoImplicit false

namespace Lineage

namespace Event

def allocated? : Event → Option InstanceNo
  | .allocated id _ _ => some id
  | _ => none

def released? : Event → Option InstanceNo
  | .released id => some id
  | _ => none

/-- The live numbers after what an event reports. -/
def replay (live : List InstanceNo) : Event → List InstanceNo
  | .allocated id _ _ => live ++ [id]
  | .released id => live.erase id
  | _ => live

end Event

namespace Store

/-- The live numbers, in ascending order. -/
def numbers (store : Store) : List InstanceNo :=
  (List.range' 1 (store.next - 1)).filter (store.contains ·)

section Numbers
variable {store : Store} {id : InstanceNo}

theorem add_next_sub (store : Store) : 1 + (store.next - 1) = store.next :=
  Nat.add_sub_cancel' (Nat.succ_pos _)

theorem next_allocate_sub (store : Store) (cls : Class) (domain : Domain) :
    (store.allocate cls domain).next - 1 = store.next - 1 + 1 := by
  rw [next_allocate]
  rfl

theorem contains_iff : store.contains id = true ↔ ∃ inst, store.find? id = some inst :=
  Option.isSome_iff_exists

theorem mem_numbers_iff : id ∈ store.numbers ↔ store.contains id = true := by
  rw [numbers, List.mem_filter, List.mem_range'_1]
  constructor
  · intro both
    exact both.2
  · intro live
    obtain ⟨inst, found⟩ := contains_iff.mp live
    obtain ⟨positive, given⟩ := bounds_of_find? found
    have below : id < 1 + (store.next - 1) := by
      rw [add_next_sub]
      exact given
    exact ⟨⟨positive, below⟩, live⟩

theorem nodup_numbers (store : Store) : store.numbers.Nodup :=
  List.Nodup.filter _ (List.nodup_range' 1)

theorem numbers_congr {other : Store} (sameNext : other.next = store.next)
    (same : ∀ id, other.contains id = store.contains id) : other.numbers = store.numbers := by
  unfold numbers
  rw [sameNext]
  exact List.filter_congr fun id _ => same id

theorem numbers_write {changed : Store} {classes : ClassTable} {field : String} {value : Value}
    (run : store.write classes id field value = .ok changed) :
    changed.numbers = store.numbers := by
  obtain ⟨sameNext, inst, slot, live, changes⟩ := find?_of_write run
  apply numbers_congr sameNext
  intro other
  unfold contains
  rw [changes other]
  split
  · rename_i isWritten
    rw [isWritten, live]
    rfl
  · rfl

theorem numbers_allocate (store : Store) (cls : Class) (domain : Domain) :
    (store.allocate cls domain).numbers = store.numbers ++ [store.next] := by
  unfold numbers
  rw [next_allocate_sub, List.range'_1_concat, List.filter_append, add_next_sub]
  congr 1
  · apply List.filter_congr
    intro other inRange
    have older := (List.mem_range'_1.mp inRange).2
    rw [add_next_sub] at older
    rw [contains, contains, find?_allocate, if_neg (Nat.ne_of_lt older)]
  · simp [contains, find?_allocate]

theorem numbers_release {left : Store} {inst : Instance}
    (run : store.release id = .ok (inst, left)) :
    left.numbers = store.numbers.erase id := by
  obtain ⟨live, rfl⟩ := (store.release_eq_ok_iff left id inst).mp run
  obtain ⟨positive, given⟩ := bounds_of_find? live
  rw [(nodup_numbers store).erase_eq_filter]
  unfold numbers
  rw [next_put, List.filter_filter]
  apply List.filter_congr
  intro other _
  unfold contains
  rw [find?_put store id other none positive given]
  by_cases isReleased : other = id <;> simp [isReleased]

/-- Counting the occupied cells counts the live numbers. -/
theorem size_eq_length (store : Store) : store.size = store.numbers.length := by
  have cells : (List.range store.cells.toList.length).map
      (fun cell => store.cells.toList[cell]?.join) = store.cells.toList := by
    apply List.ext_getElem
    · simp
    · intro cell _ inside
      rw [List.getElem_map, List.getElem_range, List.getElem?_eq_getElem inside]
      rfl
  have occupied : ∀ cell, store.contains (1 + cell) = (store.cells.toList[cell]?.join).isSome := by
    intro cell
    rw [Nat.add_comm, contains, find?, Array.getElem?_toList]
  calc store.size
      = store.cells.toList.countP Option.isSome := Array.countP_toList.symm
    _ = (List.range store.cells.size).countP fun cell => store.contains (1 + cell) := by
        rw [← cells, List.countP_map]
        simp only [Function.comp_def, occupied]
        rfl
    _ = store.numbers.length := by
        rw [numbers, List.range'_eq_map_range, ← List.countP_eq_length_filter, List.countP_map]
        rfl

end Numbers

/-! ## Entries -/

/-- The events are a ledger of the store. -/
structure Ledger (events : List Event) (store : Store) : Prop where
  order : events.filterMap Event.allocated? = List.range' 1 (store.next - 1)
  live : events.foldl Event.replay [] = store.numbers
  balance : store.size + (events.filterMap Event.released?).length =
    (events.filterMap Event.allocated?).length
  gone : ∀ id ∈ events.filterMap Event.released?, id < store.next ∧ store.find? id = none

theorem ledger_empty : Ledger [] empty where
  order := rfl
  live := rfl
  balance := rfl
  gone _ nothing := by cases nothing

variable {events : List Event} {store : Store}

theorem Ledger.write {changed : Store} {classes : ClassTable} {id : InstanceNo} {field : String}
    {value : Value} (ledger : Ledger events store)
    (run : store.write classes id field value = .ok changed) : Ledger events changed where
  order := by rw [ledger.order, (find?_of_write run).1]
  live := by rw [ledger.live, numbers_write run]
  balance := by rw [size_eq_length, numbers_write run, ← size_eq_length, ledger.balance]
  gone other isGone := by
    obtain ⟨given, dead⟩ := ledger.gone other isGone
    rw [(find?_of_write run).1]
    exact ⟨given, (evolves_write run).ended other given (.inl dead)⟩

theorem Ledger.allocate (ledger : Ledger events store) (cls : Class) (domain : Domain) :
    Ledger (events ++ [.allocated store.next cls.name domain]) (store.allocate cls domain) where
  order := by
    rw [List.filterMap_append, ledger.order, next_allocate_sub, List.range'_1_concat, add_next_sub]
    rfl
  live := by
    rw [List.foldl_append, ledger.live, numbers_allocate]
    rfl
  balance := by
    have balance := ledger.balance
    rw [size_eq_length] at balance ⊢
    simp only [numbers_allocate, List.filterMap_append, List.length_append, Event.allocated?,
      Event.released?, List.filterMap_cons, List.filterMap_nil, List.length_cons, List.length_nil]
    omega
  gone other isGone := by
    rw [List.filterMap_append, List.mem_append] at isGone
    obtain ⟨given, dead⟩ := ledger.gone other (isGone.resolve_right (by simp [Event.released?]))
    have grown := store.next_le_allocate cls domain
    have stays := (evolves_allocate store cls domain).ended other given (.inl dead)
    exact ⟨Nat.lt_of_lt_of_le given grown, stays⟩

theorem Ledger.report (ledger : Ledger events store) {event : Event}
    (noAllocation : event.allocated? = none) (noRelease : event.released? = none) :
    Ledger (events ++ [event]) store where
  order := by simpa [List.filterMap_append, noAllocation] using ledger.order
  live := by
    rw [List.foldl_append, ledger.live]
    cases event with
    | allocated id cls domain => cases noAllocation
    | released id => cases noRelease
    | _ => rfl
  balance := by simpa [List.filterMap_append, noAllocation, noRelease] using ledger.balance
  gone := by simpa [List.filterMap_append, noRelease] using ledger.gone

theorem Ledger.release {left : Store} {id : InstanceNo} {inst : Instance}
    (ledger : Ledger events store) (run : store.release id = .ok (inst, left)) :
    Ledger (events ++ [.released id]) left := by
  have evolves := evolves_release run
  have sameNumbers := numbers_release run
  obtain ⟨live, isLeft⟩ := (store.release_eq_ok_iff left id inst).mp run
  have sameNext : left.next = store.next := by rw [isLeft, next_put]
  refine ⟨?_, ?_, ?_, ?_⟩
  · rw [List.filterMap_append, ledger.order, sameNext]
    exact List.append_nil _
  · rw [List.foldl_append, ledger.live, sameNumbers]
    rfl
  · have isNumber : id ∈ store.numbers := mem_numbers_iff.mpr (contains_iff.mpr ⟨inst, live⟩)
    have oneLess := List.length_erase_add_one isNumber
    have balance := ledger.balance
    rw [size_eq_length] at balance ⊢
    simp only [sameNumbers, List.filterMap_append, List.length_append, Event.allocated?,
      Event.released?, List.filterMap_cons, List.filterMap_nil, List.length_cons, List.length_nil]
    omega
  · intro other isGone
    rw [List.filterMap_append, List.mem_append] at isGone
    rw [sameNext]
    rcases isGone with before | isReleased
    · obtain ⟨given, dead⟩ := ledger.gone other before
      exact ⟨given, evolves.ended other given (.inl dead)⟩
    · obtain rfl : other = id := by simpa [Event.released?] using isReleased
      have given := (bounds_of_find? live).2
      exact ⟨given, evolves.ended other given (.inr rfl)⟩

/-- A release that is refused is not reported. -/
theorem Ledger.released (ledger : Ledger events store) (id : InstanceNo) :
    Ledger (events ++ (Action.release id store).events) (Action.release id store).store := by
  unfold Action.release
  cases run : store.release id with
  | ok released => exact ledger.release run
  | error failure =>
      rw [List.append_nil]
      exact ledger

/-- What a call does is entered as it is done. -/
theorem Ledger.course {classes : ClassTable} {more : List Event} {reached : Store}
    (ledger : Ledger events store) (course : store.Course classes more reached) :
    Ledger (events ++ more) reached := by
  induction course with
  | stay =>
      rw [List.append_nil]
      exact ledger
  | write _ run ih => exact ih.write run
  | allocate _ _ domain ih =>
      rw [← List.append_assoc]
      exact ih.allocate _ domain
  | report _ _ _ _ _ _ _ ih =>
      rw [← List.append_assoc]
      exact ih.report rfl rfl

end Store

/-! ## Allocations -/

/-- An allocation takes the next number, or nothing at all. -/
theorem Action.allocateNamed_cases (classes : ClassTable) (cls : String) (domain : Domain)
    (store : Store) :
    (∃ found, allocateNamed classes cls domain store =
      ⟨.ok store.next, store.allocate found domain,
        [.allocated store.next found.name domain]⟩) ∨
    ∃ failure, allocateNamed classes cls domain store = ⟨.error failure, store, []⟩ := by
  unfold allocateNamed
  cases classes.lookup cls with
  | error failure => exact .inr ⟨failure, rfl⟩
  | ok found => exact .inl ⟨found, rfl⟩

/-- So does one within a body, which may fail for the domain of the receiver as well. -/
theorem Frame.allocate_cases (frame : Frame) (cls : String) (mark : Option Domain)
    (store : Store) :
    (∃ found domain, frame.allocate cls mark store =
      ⟨.ok store.next, store.allocate found domain,
        [.allocated store.next found.name domain]⟩) ∨
    ∃ failure, frame.allocate cls mark store = ⟨.error failure, store, []⟩ := by
  have named := fun domain => Action.allocateNamed_cases frame.dispatcher.hierarchy.classes cls
    domain store
  cases mark with
  | some domain =>
      obtain ⟨found, run⟩ | refused := named domain
      · exact .inl ⟨found, domain, run⟩
      · exact .inr refused
  | none =>
      cases known : store.domainOf frame.receiver with
      | error failure =>
          have asked : frame.domain store = ⟨.error failure, store, []⟩ := by
            rw [Frame.domain, Action.run_query, known]
          exact .inr ⟨failure, Action.run_bind_of_error asked _⟩
      | ok domain =>
          have asked : frame.domain store = ⟨.ok domain, store, []⟩ := by
            rw [Frame.domain, Action.run_query, known]
          have goesOn : frame.allocate cls none store =
              frame.dispatcher.allocate cls domain store := Action.run_bind_of_ok asked _
          rw [goesOn]
          obtain ⟨found, run⟩ | refused := named domain
          · exact .inl ⟨found, domain, run⟩
          · exact .inr refused

end Lineage
