import Lineage.Proofs.Call.Renaming
import Lineage.Proofs.Store.Evolution

/-!
# Independent calls

Two calls that reach no live instance in common can be made in either order.  The
first leaves what the second reaches as it was (`find?_run`), so the second finds the
same instances before and after it (`mirrored_run`) and does the same, under other new
numbers.  `run_comm` compares the two orders: up to the exchange of the two blocks of
new numbers the calls end alike, and so do the instances that they reach or make.
-/

set_option autoImplicit false

namespace Lineage

/-- A call of the host through some dispatcher. -/
structure Call where
  dispatcher : Dispatcher
  reference : Reference
  signature : Signature
  args : List Value

namespace Call

def roots (call : Call) : List Value := .object call.reference.target :: call.args

def run (call : Call) : Action Value :=
  call.dispatcher.invoke call.reference call.signature call.args

/-- The call is made over a hierarchy that a host can make and whose methods are all
expressions. -/
structure Ordinary (call : Call) : Prop where
  isSealed : call.dispatcher.hierarchy.Sealed
  plain : call.dispatcher.hierarchy.Plain

end Call

/-- No live instance is reached by both calls, and what they reach has been given out. -/
structure Independent (store : Store) (first second : Call) : Prop where
  apart : ∀ id, Reachable store first.roots id → Reachable store second.roots id →
    store.find? id = none
  firstGiven : ∀ id, Reachable store first.roots id → id < store.next
  secondGiven : ∀ id, Reachable store second.roots id → id < store.next

theorem Independent.symm {store : Store} {first second : Call}
    (independent : Independent store first second) : Independent store second first where
  apart id reached otherReached := independent.apart id otherReached reached
  firstGiven := independent.secondGiven
  secondGiven := independent.firstGiven

/-! ## Stores that agree on what is reached -/

@[simp] theorem Value.rename_id : Value.rename id = id := by
  funext value
  cases value <;> rfl

@[simp] theorem Instance.rename_id : Instance.rename id = id := by
  funext inst
  simp [Instance.rename]

theorem map_rename_id (values : List Value) : values.map (Value.rename id) = values := by
  simp

section Agreeing
variable {store other : Store} {roots : List Value}
  (same : ∀ id, Reachable store roots id → other.find? id = store.find? id)
include same

theorem reachable_iff (id : InstanceNo) : Reachable other roots id ↔ Reachable store roots id := by
  constructor
  · intro reached
    induction reached with
    | root isRoot => exact .root isRoot
    | slot _ live held ownerReached =>
        rw [same _ ownerReached] at live
        exact ownerReached.slot live held
  · intro reached
    induction reached with
    | root isRoot => exact .root isRoot
    | slot ownerReached live held ownerToo =>
        rw [← same _ ownerReached] at live
        exact ownerToo.slot live held

theorem mirrored_id (given : ∀ id, Reachable store roots id → id < store.next)
    (otherGiven : ∀ id, Reachable store roots id → id < other.next) :
    Mirrored id store other roots where
  onto := by
    rw [map_rename_id]
    refine ⟨fun id reached => (reachable_iff same id).mpr reached, fun _ _ _ _ equal => equal, ?_⟩
    exact fun id reached => ⟨id, (reachable_iff same id).mp reached, rfl⟩
  leftGiven := given
  rightGiven id reached := by
    rw [map_rename_id] at reached
    exact otherGiven id ((reachable_iff same id).mp reached)
  contents id reached := by
    rw [Instance.rename_id, Option.map_id]
    exact same id reached

end Agreeing

/-! ## One call beside the other -/

namespace Call

section Beside
variable {call : Call} (ordinary : call.Ordinary) {store : Store}
include ordinary

/-- No call changes an instance that it does not reach, or brings one to life. -/
theorem find?_run {id : InstanceNo} (given : id < store.next)
    (apart : Reachable store call.roots id → store.find? id = none) :
    (call.run store).store.find? id = store.find? id := by
  obtain ⟨accepted, flat⟩ := ordinary.isSealed.exists_flat
  cases live : store.find? id with
  | none =>
      have lasts := Dispatcher.evolves_invoke flat call.reference call.signature call.args store
      exact lasts.ended id given (Or.inl live)
  | some inst =>
      have rootsHeld : ∀ id, .object id ∈ call.roots →
          Confinement.Held store call.roots store id := fun id isRoot => Or.inl (.root isRoot)
      obtain ⟨valid, _, _⟩ := Dispatcher.keeps_invoke
        (Confinement.respected call.dispatcher.hierarchy.classes) flat ordinary.plain
        call.dispatcher.options call.reference call.signature call.args store
        Confinement.valid_start rootsHeld
      obtain ⟨after, nowLive, _, _, unreached⟩ := valid.kept id inst live
      have outside : ¬ Reachable store call.roots id := by
        intro reached
        rw [apart reached] at live
        cases live
      rw [unreached outside] at nowLive
      exact nowLive

theorem next_le_run : store.next ≤ (call.run store).store.next := by
  obtain ⟨accepted, flat⟩ := ordinary.isSealed.exists_flat
  exact (Dispatcher.evolves_invoke flat call.reference call.signature call.args store).grown

/-- On stores that agree on what the call reaches it does the same, up to the new
numbers. -/
theorem reached_run {other : Store} (matched : Mirrored id store other call.roots) :
    (Renaming.coupling id store other call.roots).Reached store other Link.value
      (call.run store) (call.run other) := by
  obtain ⟨accepted, flat⟩ := ordinary.isSealed.exists_flat
  have respected := (Renaming.within call.dispatcher.hierarchy call.dispatcher.options
    matched).respected flat ordinary.plain
  have permitted := unnumbered_permits call.dispatcher.hierarchy call.reference.staticType
    call.signature
  have agree := Dispatcher.agree_invoke respected call.reference call.reference call.signature
    call.args call.args rfl (Renaming.ends_same permitted)
  have rootsReached : ∀ id, .object id ∈ call.roots → Reachable store call.roots id :=
    fun id isRoot => .root isRoot
  have rootsRelated := Renaming.related_rename id other rootsReached
  rw [map_rename_id] at rootsRelated
  exact agree store other (Renaming.stores_start matched)
    fun pair member => (List.forall₂_iff_zip.mp rootsRelated).2 member

end Beside

end Call

namespace Independent

variable {store : Store} {first second : Call} (independent : Independent store first second)
  (ordinary : first.Ordinary)
include independent ordinary

/-- What the second call reaches is the same before and after the first. -/
theorem find?_run_first (id : InstanceNo) (reached : Reachable store second.roots id) :
    (first.run store).store.find? id = store.find? id :=
  Call.find?_run ordinary (independent.secondGiven id reached)
    fun firstReached => independent.apart id firstReached reached

theorem reachable_run_iff (id : InstanceNo) :
    Reachable (first.run store).store second.roots id ↔ Reachable store second.roots id :=
  reachable_iff (independent.find?_run_first ordinary) id

theorem mirrored_run : Mirrored id store (first.run store).store second.roots :=
  mirrored_id (independent.find?_run_first ordinary) independent.secondGiven
    fun id reached => Nat.lt_of_lt_of_le (independent.secondGiven id reached)
      (Call.next_le_run ordinary)

theorem mirrored_of_run : Mirrored id (first.run store).store store second.roots := by
  have given : ∀ id, Reachable (first.run store).store second.roots id → id < store.next :=
    fun id reached => independent.secondGiven id
      ((independent.reachable_run_iff ordinary id).mp reached)
  refine mirrored_id ?_ ?_ given
  · intro id reached
    exact (independent.find?_run_first ordinary id
      ((independent.reachable_run_iff ordinary id).mp reached)).symm
  · exact fun id reached => Nat.lt_of_lt_of_le (given id reached)
      (Call.next_le_run ordinary)

/-- The second call leaves alone what the first leaves behind, but for what the second
itself reaches. -/
theorem find?_run_second (otherOrdinary : second.Ordinary) {id : InstanceNo}
    (given : id < (first.run store).store.next)
    (apart : Reachable store second.roots id → store.find? id = none) :
    (second.run (first.run store).store).store.find? id = (first.run store).store.find? id := by
  refine Call.find?_run otherOrdinary given ?_
  intro reachedAfter
  have reached := (independent.reachable_run_iff ordinary id).mp reachedAfter
  rw [independent.find?_run_first ordinary id reached, apart reached]

/-- So it leaves alone what the first reached or made. -/
theorem find?_run_own (otherOrdinary : second.Ordinary) {id : InstanceNo}
    (given : id < (first.run store).store.next)
    (own : Reachable store first.roots id ∨ store.next ≤ id) :
    (second.run (first.run store).store).store.find? id = (first.run store).store.find? id := by
  refine independent.find?_run_second ordinary otherOrdinary given ?_
  intro otherReached
  rcases own with reached | isNew
  · exact independent.apart id reached otherReached
  · exact absurd (independent.secondGiven id otherReached) (Nat.not_lt_of_le isNew)

end Independent

/-! ## The exchange of new numbers -/

/-- Exchange the `first` numbers from `start` on with the `second` numbers after them. -/
def exchange (start first second id : Nat) : Nat :=
  if start ≤ id ∧ id < start + first then id + second
  else if start + first ≤ id ∧ id < start + first + second then id - first
  else id

section Exchange
variable (start first second : Nat)

theorem exchange_of_lt {id : Nat} (old : id < start) :
    exchange start first second id = id := by
  unfold exchange
  rw [if_neg (by omega), if_neg (by omega)]

theorem exchange_of_le {id : Nat} (later : start + first + second ≤ id) :
    exchange start first second id = id := by
  unfold exchange
  rw [if_neg (by omega), if_neg (by omega)]

theorem exchange_first {offset : Nat} (inside : offset < first) :
    exchange start first second (start + offset) = start + second + offset := by
  unfold exchange
  rw [if_pos (by omega)]
  omega

theorem exchange_second {offset : Nat} (inside : offset < second) :
    exchange start first second (start + first + offset) = start + offset := by
  unfold exchange
  rw [if_neg (by omega), if_pos (by omega)]
  omega

theorem exchange_exchange (id : Nat) :
    exchange start second first (exchange start first second id) = id := by
  rcases Nat.lt_or_ge id start with old | notOld
  · rw [exchange_of_lt start first second old, exchange_of_lt start second first old]
  obtain ⟨offset, rfl⟩ := Nat.exists_eq_add_of_le notOld
  rcases Nat.lt_or_ge offset first with inFirst | notFirst
  · rw [exchange_first start first second inFirst, exchange_second start second first inFirst]
  obtain ⟨rest, rfl⟩ := Nat.exists_eq_add_of_le notFirst
  rw [← Nat.add_assoc]
  rcases Nat.lt_or_ge rest second with inSecond | later
  · rw [exchange_second start first second inSecond, exchange_first start second first inSecond]
  · rw [exchange_of_le start first second (by omega), exchange_of_le start second first (by omega)]

theorem exchange_bijective : Function.Bijective (exchange start first second) :=
  Function.bijective_iff_has_inverse.mpr ⟨exchange start second first,
    exchange_exchange start first second, exchange_exchange start second first⟩

end Exchange

/-- Instances that correspond are renamed into each other. -/
theorem Renaming.find?_of_same {p q : InstanceNo → InstanceNo} {left right store other : Store}
    {roots : List Value} (stores : Stores p left right roots store other)
    (follows : ∀ id twin, Same p left right roots store id twin → q id = twin)
    {id twin : InstanceNo} (same : Same p left right roots store id twin) :
    other.find? twin = (store.find? id).map (Instance.rename q) := by
  rcases stores.contents id twin same with
    ⟨absent, otherAbsent⟩ | ⟨inst, otherInst, live, otherLive, related⟩
  · rw [absent, otherAbsent]
    rfl
  · rw [live, otherLive, related.eq_rename follows]
    rfl

/-! ## Both orders -/

/-- The numbers that two calls give out in either order: `count` are the first one's and
`otherCount` the second one's. -/
structure Allocates (store : Store) (first second : Call) (count otherCount : Nat) : Prop where
  early : (first.run store).store.next = store.next + count
  late : (second.run (first.run store).store).store.next = store.next + count + otherCount
  otherEarly : (second.run store).store.next = store.next + otherCount
  otherLate : (first.run (second.run store).store).store.next = store.next + otherCount + count

namespace Independent

variable {store : Store} {first second : Call} (independent : Independent store first second)
  (ordinary : first.Ordinary) (otherOrdinary : second.Ordinary)
include independent ordinary otherOrdinary

/-- The first call on the store as it is, and after the second call. -/
theorem reached_first :
    (Renaming.coupling id store (second.run store).store first.roots).Reached store
      (second.run store).store Link.value (first.run store) (first.run (second.run store).store) :=
  Call.reached_run ordinary (independent.symm.mirrored_run otherOrdinary)

/-- The second call after the first one, and on the store as it is. -/
theorem reached_second :
    (Renaming.coupling id (first.run store).store store second.roots).Reached
      (first.run store).store store Link.value (second.run (first.run store).store)
      (second.run store) :=
  Call.reached_run otherOrdinary (independent.mirrored_of_run ordinary)

theorem exists_allocates : ∃ count otherCount, Allocates store first second count otherCount := by
  obtain ⟨count, early, otherLate⟩ :=
    (independent.reached_first ordinary otherOrdinary).stores.counted
  obtain ⟨otherCount, late, otherEarly⟩ :=
    (independent.reached_second ordinary otherOrdinary).stores.counted
  rw [otherEarly] at otherLate
  rw [early] at late
  exact ⟨count, otherCount, early, late, otherEarly, otherLate⟩

variable {count otherCount : Nat} (allocates : Allocates store first second count otherCount)
include allocates

omit otherOrdinary ordinary in
theorem exchange_of_same_first (number twin : InstanceNo)
    (same : Renaming.Same id store (second.run store).store first.roots (first.run store).store
      number twin) : exchange store.next count otherCount number = twin := by
  rcases same with ⟨reached, isTwin⟩ | ⟨offset, rfl, rfl, given⟩
  · rw [isTwin]
    exact exchange_of_lt _ _ _ (independent.firstGiven number reached)
  · rw [allocates.early] at given
    rw [allocates.otherEarly]
    exact exchange_first _ _ _ (Nat.lt_of_add_lt_add_left given)

omit otherOrdinary in
theorem exchange_of_same_second (number twin : InstanceNo)
    (same : Renaming.Same id (first.run store).store store second.roots
      (second.run (first.run store).store).store number twin) :
    exchange store.next count otherCount number = twin := by
  rcases same with ⟨reachedLate, isTwin⟩ | ⟨offset, rfl, rfl, given⟩
  · have reached := (independent.reachable_run_iff ordinary number).mp reachedLate
    rw [isTwin]
    exact exchange_of_lt _ _ _ (independent.secondGiven number reached)
  · rw [allocates.late, allocates.early] at given
    rw [allocates.early]
    exact exchange_second _ _ _ (Nat.lt_of_add_lt_add_left given)

/-- What the first call reaches or makes is the same after both orders. -/
theorem find?_of_first {number twin : InstanceNo}
    (same : Renaming.Same id store (second.run store).store first.roots (first.run store).store
      number twin) :
    (first.run (second.run store).store).store.find? (exchange store.next count otherCount number) =
      ((second.run (first.run store).store).store.find? number).map
        (Instance.rename (exchange store.next count otherCount)) := by
  have own : number < (first.run store).store.next ∧
      (Reachable store first.roots number ∨ store.next ≤ number) := by
    rcases same with ⟨reached, _⟩ | ⟨offset, isNew, _, given⟩
    · have old := independent.firstGiven number reached
      exact ⟨Nat.lt_of_lt_of_le old (Call.next_le_run ordinary), .inl reached⟩
    · exact ⟨given, .inr (isNew ▸ Nat.le_add_right _ _)⟩
  rw [independent.exchange_of_same_first allocates number twin same,
    independent.find?_run_own ordinary otherOrdinary own.1 own.2]
  exact Renaming.find?_of_same (independent.reached_first ordinary otherOrdinary).stores
    (independent.exchange_of_same_first allocates) same

/-- What the second call reaches or makes is the same after both orders. -/
theorem find?_of_second {number twin : InstanceNo}
    (same : Renaming.Same id (first.run store).store store second.roots
      (second.run (first.run store).store).store number twin) :
    (first.run (second.run store).store).store.find? (exchange store.next count otherCount number) =
      ((second.run (first.run store).store).store.find? number).map
        (Instance.rename (exchange store.next count otherCount)) := by
  have own : twin < (second.run store).store.next ∧
      (Reachable store second.roots twin ∨ store.next ≤ twin) := by
    rcases same with ⟨reachedLate, isTwin⟩ | ⟨offset, rfl, rfl, given⟩
    · have reached := (independent.reachable_run_iff ordinary number).mp reachedLate
      have old := independent.secondGiven number reached
      rw [isTwin]
      exact ⟨Nat.lt_of_lt_of_le old (Call.next_le_run otherOrdinary), .inl reached⟩
    · rw [allocates.late, allocates.early] at given
      rw [allocates.otherEarly]
      exact ⟨Nat.add_lt_add_left (Nat.lt_of_add_lt_add_left given) _, .inr (Nat.le_add_right _ _)⟩
  rw [independent.exchange_of_same_second ordinary allocates number twin same,
    independent.symm.find?_run_own otherOrdinary ordinary own.1 own.2]
  exact Renaming.find?_of_same (independent.reached_second ordinary otherOrdinary).stores
    (independent.exchange_of_same_second ordinary allocates) same

theorem find?_exchange (number : InstanceNo) (own : Reachable store first.roots number ∨
      Reachable store second.roots number ∨ store.next ≤ number) :
    (first.run (second.run store).store).store.find? (exchange store.next count otherCount number) =
      ((second.run (first.run store).store).store.find? number).map
        (Instance.rename (exchange store.next count otherCount)) := by
  rcases own with reached | otherReached | isNew
  · exact independent.find?_of_first ordinary otherOrdinary allocates (.inl ⟨reached, rfl⟩)
  · have reachedLate := (independent.reachable_run_iff ordinary number).mpr otherReached
    exact independent.find?_of_second ordinary otherOrdinary allocates (.inl ⟨reachedLate, rfl⟩)
  · obtain ⟨offset, rfl⟩ := Nat.exists_eq_add_of_le isNew
    rcases Nat.lt_or_ge offset count with inFirst | notFirst
    · have given : store.next + offset < (first.run store).store.next := by
        rw [allocates.early]
        exact Nat.add_lt_add_left inFirst _
      exact independent.find?_of_first ordinary otherOrdinary allocates
        (.inr ⟨offset, rfl, rfl, given⟩)
    · obtain ⟨rest, rfl⟩ := Nat.exists_eq_add_of_le notFirst
      rw [← Nat.add_assoc]
      rcases Nat.lt_or_ge rest otherCount with inSecond | later
      · have given : store.next + count + rest <
            (second.run (first.run store).store).store.next := by
          rw [allocates.late]
          exact Nat.add_lt_add_left inSecond _
        exact independent.find?_of_second ordinary otherOrdinary allocates
          (.inr ⟨rest, by rw [allocates.early], rfl, given⟩)
      · -- Behind both blocks no number stands for anything, whatever the order.
        have ended := Nat.add_le_add_left later (store.next + count)
        rw [exchange_of_le _ _ _ ended, Store.find?_eq_none_of_next_le,
          Store.find?_eq_none_of_next_le]
        · rfl
        · rw [allocates.late]
          exact ended
        · rw [allocates.otherLate, Nat.add_right_comm]
          exact ended

omit allocates in
/-- What neither call reaches is as it was after both orders. -/
theorem find?_of_unreached {number : InstanceNo} (old : number < store.next)
    (unreached : ¬ Reachable store first.roots number)
    (otherUnreached : ¬ Reachable store second.roots number) :
    (second.run (first.run store).store).store.find? number = store.find? number := by
  have given := Nat.lt_of_lt_of_le old (Call.next_le_run ordinary)
  rw [independent.find?_run_second ordinary otherOrdinary given
    fun reached => absurd reached otherUnreached]
  exact Call.find?_run ordinary old fun reached => absurd reached unreached

end Independent

/-- Independent calls can be made in either order: each ends alike, up to the exchange
of the numbers that the two give out, and so does every instance that one of them
reaches or makes.  All others are left as they were in both orders. -/
theorem Call.run_comm (store : Store) (first second : Call) (ordinary : first.Ordinary)
    (otherOrdinary : second.Ordinary) (independent : Independent store first second) :
    let firstEarly := first.run store
    let secondLate := second.run firstEarly.store
    let secondEarly := second.run store
    let firstLate := first.run secondEarly.store
    ∃ count otherCount,
      firstEarly.store.next = store.next + count ∧
      secondLate.store.next = store.next + count + otherCount ∧
      secondEarly.store.next = store.next + otherCount ∧
      firstLate.store.next = store.next + otherCount + count ∧
      let q := exchange store.next count otherCount
      Function.Bijective q ∧ (∀ id, id < store.next → q id = id) ∧
      (∀ offset, offset < count →
        q (store.next + offset) = store.next + otherCount + offset) ∧
      (∀ offset, offset < otherCount →
        q (store.next + count + offset) = store.next + offset) ∧
      firstLate.result = Outcome.rename q firstEarly.result ∧
      firstLate.events = firstEarly.events.map (Event.rename q) ∧
      secondEarly.result = Outcome.rename q secondLate.result ∧
      secondEarly.events = secondLate.events.map (Event.rename q) ∧
      (∀ id, Reachable store first.roots id ∨ Reachable store second.roots id ∨
          store.next ≤ id →
        firstLate.store.find? (q id) = (secondLate.store.find? id).map (Instance.rename q)) ∧
      ∀ id, id < store.next → ¬ Reachable store first.roots id →
        ¬ Reachable store second.roots id →
          secondLate.store.find? id = store.find? id ∧
          firstLate.store.find? id = store.find? id := by
  intro firstEarly secondLate secondEarly firstLate
  obtain ⟨count, otherCount, allocates⟩ := independent.exists_allocates ordinary otherOrdinary
  obtain ⟨_, _, events, ends⟩ := independent.reached_first ordinary otherOrdinary
  obtain ⟨_, _, otherEvents, otherEnds⟩ := independent.reached_second ordinary otherOrdinary
  have follows := independent.exchange_of_same_first allocates
  have otherFollows := independent.exchange_of_same_second ordinary allocates
  refine ⟨count, otherCount, allocates.early, allocates.late, allocates.otherEarly,
    allocates.otherLate, exchange_bijective _ _ _, fun _ old => exchange_of_lt _ _ _ old,
    fun _ inside => exchange_first _ _ _ inside, fun _ inside => exchange_second _ _ _ inside,
    Renaming.eq_rename_of_ends follows ends,
    eq_map_of_forall₂ events fun _ _ alike => Event.Related.eq_rename follows alike,
    Renaming.eq_rename_of_ends otherFollows otherEnds,
    eq_map_of_forall₂ otherEvents fun _ _ alike => Event.Related.eq_rename otherFollows alike,
    independent.find?_exchange ordinary otherOrdinary allocates, ?_⟩
  intro id old unreached otherUnreached
  exact ⟨independent.find?_of_unreached ordinary otherOrdinary old unreached otherUnreached,
    independent.symm.find?_of_unreached otherOrdinary ordinary old otherUnreached unreached⟩

/-- A call on a node that fails midway. -/
def growth (target : InstanceNo) : Call :=
  ⟨⟨sampleHierarchy, {}⟩, ⟨target, ⟨1, 0⟩⟩, ⟨"grow", 0⟩, []⟩

theorem growth_ordinary (target : InstanceNo) : (growth target).Ordinary :=
  ⟨sampleHierarchy_sealed, sampleHierarchy_plain⟩

theorem independent_growth : Independent sampleStore (growth 1) (growth 2) := by
  have onlyOne : ∀ id, Reachable sampleStore (growth 1).roots id → id = 1 := by
    intro id reached
    induction reached with
    | root isRoot => simpa [Call.roots, growth] using isRoot
    | slot _ live held isOne =>
        subst isOne
        cases live
        simp at held
  have others : ∀ id, Reachable sampleStore (growth 2).roots id → id = 2 ∨ id = 3 := by
    intro id reached
    induction reached with
    | root isRoot => exact Or.inl (by simpa [Call.roots, growth] using isRoot)
    | slot _ live held owner =>
        rcases owner with rfl | rfl <;> cases live <;> simp at held <;> simp [held]
  refine ⟨?_, ?_, ?_⟩
  · intro id reached otherReached
    rcases others id otherReached with rfl | rfl <;> cases onlyOne _ reached
  · intro id reached
    rw [onlyOne id reached]
    decide
  · intro id reached
    rcases others id reached with rfl | rfl <;> decide

theorem growth_comm :
    (growth 1).Ordinary ∧ (growth 2).Ordinary ∧ Independent sampleStore (growth 1) (growth 2) ∧
      ∃ q : InstanceNo → InstanceNo, Function.Bijective q ∧
        ((growth 1).run ((growth 2).run sampleStore).store).result =
          Outcome.rename q ((growth 1).run sampleStore).result := by
  obtain ⟨count, otherCount, _, _, _, _, bijective, _, _, _, alike, _⟩ :=
    Call.run_comm sampleStore (growth 1) (growth 2) (growth_ordinary 1) (growth_ordinary 2)
      independent_growth
  exact ⟨growth_ordinary 1, growth_ordinary 2, independent_growth, _, bijective, alike⟩

/-- Two nodes, and one before them that names a number not given out yet. -/
def strayStore : Store :=
  ⟨#[some ⟨⟨1, 0⟩, .managed, [.object 4, .str "node"]⟩,
     some ⟨⟨1, 0⟩, .managed, [.nil, .str "node"]⟩,
     some ⟨⟨1, 0⟩, .managed, [.nil, .str "node"]⟩]⟩

theorem reachable_strayStore (target : InstanceNo) (second : target = 2 ∨ target = 3)
    (id : InstanceNo) (reached : Reachable strayStore (growth target).roots id) : id = target := by
  induction reached with
  | root isRoot => simpa [Call.roots, growth] using isRoot
  | slot _ live held isTarget =>
      subst isTarget
      rcases second with rfl | rfl <;> cases live <;> simp at held

theorem independent_strayStore : Independent strayStore (growth 2) (growth 3) where
  apart id reached otherReached := by
    have isTwo := reachable_strayStore 2 (.inl rfl) id reached
    have isThree := reachable_strayStore 3 (.inr rfl) id otherReached
    rw [isTwo] at isThree
    cases isThree
  firstGiven id reached := by
    rw [reachable_strayStore 2 (.inl rfl) id reached]
    decide
  secondGiven id reached := by
    rw [reachable_strayStore 3 (.inr rfl) id reached]
    decide

/-- The slot of a node that neither call reaches keeps its number, and in the two orders
it is another call that gives this number out. -/
theorem stray_number_not_exchanged :
    let firstEarly := (growth 2).run strayStore
    let secondLate := (growth 3).run firstEarly.store
    let secondEarly := (growth 3).run strayStore
    let firstLate := (growth 2).run secondEarly.store
    (growth 2).Ordinary ∧ (growth 3).Ordinary ∧
      Independent strayStore (growth 2) (growth 3) ∧
      strayStore.next = 4 ∧ firstEarly.store.next = 5 ∧ secondLate.store.next = 6 ∧
      secondEarly.store.next = 5 ∧ firstLate.store.next = 6 ∧
      ¬ ∃ q : InstanceNo → InstanceNo, (∀ id, id < 4 → q id = id) ∧ q 4 = 5 ∧ q 5 = 4 ∧
        ∀ id, firstLate.store.find? (q id) =
          (secondLate.store.find? id).map (Instance.rename q) := by
  intro firstEarly secondLate secondEarly firstLate
  have early : secondLate.store.find? 1 =
      some ⟨⟨1, 0⟩, .managed, [.object 4, .str "node"]⟩ := by decide
  have late : firstLate.store.find? 1 =
      some ⟨⟨1, 0⟩, .managed, [.object 4, .str "node"]⟩ := by decide
  refine ⟨growth_ordinary 2, growth_ordinary 3, independent_strayStore, rfl, by decide, by decide,
    by decide, by decide, ?_⟩
  rintro ⟨q, old, exchanged, _, same⟩
  have here := same 1
  rw [old 1 (by decide), late, early] at here
  simp [Instance.rename, Value.rename, exchanged] at here

end Lineage
