import Mathlib.Data.Set.Function
import Lineage.Proofs.Call.Confinement
import Lineage.Proofs.Call.Coupling

/-!
# Renaming instances

A call does not depend on the numbers of the instances that it works on, nor on
what else the store holds.  The coupling behind it matches what the roots reach
at the start as the renaming says, and the instances allocated since in their
order.
-/

set_option autoImplicit false

namespace Lineage

def Value.rename (p : InstanceNo → InstanceNo) : Value → Value
  | .object id => .object (p id)
  | value => value

def Instance.rename (p : InstanceNo → InstanceNo) (inst : Instance) : Instance :=
  { inst with slots := inst.slots.map (Value.rename p) }

def Fault.rename (p : InstanceNo → InstanceNo) : Fault → Fault
  | .unknownInstance id => .unknownInstance (p id)
  | cause => cause

def Event.rename (p : InstanceNo → InstanceNo) : Event → Event
  | .allocated id cls domain => .allocated (p id) cls domain
  | .released id => .released (p id)
  | .dispatched level receiver cls method owner depth =>
      .dispatched level (p receiver) cls method owner depth
  | event => event

/-- The outcome of a call, renamed in its value or in its fault. -/
def Outcome.rename (p : InstanceNo → InstanceNo) : Outcome Value → Outcome Value
  | .ok value => .ok (value.rename p)
  | .error (.fault cause) => .error (.fault (cause.rename p))
  | .error .breach => .error .breach

/-- The renaming `p`, and `count` new numbers from `first` on to new numbers from
`second` on. -/
def extend (p : InstanceNo → InstanceNo) (first second count : Nat) (id : InstanceNo) :
    InstanceNo :=
  if first ≤ id ∧ id < first + count then second + (id - first) else p id

/-- What the roots reach in one store is, up to `p`, what their images reach in the
other. -/
structure Mirrored (p : InstanceNo → InstanceNo) (left right : Store) (roots : List Value) :
    Prop where
  onto : Set.BijOn p {id | Reachable left roots id}
    {id | Reachable right (roots.map (Value.rename p)) id}
  leftGiven : ∀ id, Reachable left roots id → id < left.next
  rightGiven : ∀ id, Reachable right (roots.map (Value.rename p)) id → id < right.next
  contents : ∀ id, Reachable left roots id →
    right.find? (p id) = (left.find? id).map (Instance.rename p)

/-! ## What corresponds -/

/-- Instances of the same class and domain with corresponding slots. -/
structure Instance.Related (Same : InstanceNo → InstanceNo → Prop) (inst other : Instance) :
    Prop where
  cls : inst.cls = other.cls
  domain : inst.domain = other.domain
  slots : List.Forall₂ (Value.Related Same) inst.slots other.slots

theorem Instance.Related.mono {Before After : InstanceNo → InstanceNo → Prop}
    (grows : ∀ id twin, Before id twin → After id twin) {inst other : Instance}
    (related : inst.Related Before other) : inst.Related After other :=
  ⟨related.cls, related.domain, related.slots.imp fun _ _ alike => alike.mono grows⟩

inductive Fault.Related (Same : InstanceNo → InstanceNo → Prop) : Fault → Fault → Prop where
  | numbered {id twin : InstanceNo} (same : Same id twin) :
      Related Same (.unknownInstance id) (.unknownInstance twin)
  | plain {cause : Fault} (noInstance : ∀ id, cause ≠ .unknownInstance id) :
      Related Same cause cause

inductive Event.Related (Same : InstanceNo → InstanceNo → Prop) : Event → Event → Prop where
  | allocated {id twin : InstanceNo} (same : Same id twin) (cls : String) (domain : Domain) :
      Related Same (.allocated id cls domain) (.allocated twin cls domain)
  | dispatched {id twin : InstanceNo} (same : Same id twin) (level : Level) (cls : String)
      (method : Signature) (owner : String) (depth : Nat) :
      Related Same (.dispatched level id cls method owner depth)
        (.dispatched level twin cls method owner depth)

theorem eq_map_of_forall₂ {α β : Type} {R : α → β → Prop} {f : α → β} {xs : List α}
    {ys : List β} (related : List.Forall₂ R xs ys) (images : ∀ x y, R x y → y = f x) :
    ys = xs.map f := by
  induction related with
  | nil => rfl
  | cons head _ ih => rw [List.map_cons, images _ _ head, ih]

section Reading
variable {Same : InstanceNo → InstanceNo → Prop} {p : InstanceNo → InstanceNo}
  (follows : ∀ id twin, Same id twin → p id = twin)
include follows

theorem Value.Related.eq_rename {value other : Value} (related : value.Related Same other) :
    other = value.rename p := by
  cases related with
  | object same => rw [Value.rename, follows _ _ same]
  | plain noObject =>
      cases value with
      | object id => cases noObject
      | _ => rfl

theorem Instance.Related.eq_rename {inst other : Instance} (related : inst.Related Same other) :
    other = inst.rename p := by
  obtain ⟨cls, domain, held⟩ := inst
  obtain ⟨otherClass, otherDomain, otherHeld⟩ := other
  obtain ⟨rfl, rfl, slots⟩ := related
  have sameSlots : otherHeld = held.map (Value.rename p) :=
    eq_map_of_forall₂ slots fun _ _ alike => alike.eq_rename follows
  rw [sameSlots]
  rfl

theorem Fault.Related.eq_rename {cause other : Fault} (related : cause.Related Same other) :
    other = cause.rename p := by
  cases related with
  | numbered same => rw [Fault.rename, follows _ _ same]
  | plain noInstance =>
      cases cause with
      | unknownInstance id => exact absurd rfl (noInstance id)
      | _ => rfl

theorem Event.Related.eq_rename {event other : Event} (related : event.Related Same other) :
    other = event.rename p := by
  cases related with
  | allocated same => rw [Event.rename, follows _ _ same]
  | dispatched same => rw [Event.rename, follows _ _ same]

end Reading

namespace Renaming

variable (p : InstanceNo → InstanceNo) (left right : Store) (roots : List Value)

/-- Numbers that were reachable at the start correspond as `p` says, and numbers
that have been given out since as they were given out. -/
def Same (store : Store) (id twin : InstanceNo) : Prop :=
  Reachable left roots id ∧ twin = p id ∨
    ∃ later, id = left.next + later ∧ twin = right.next + later ∧ id < store.next

structure Stores (store other : Store) : Prop where
  counted : ∃ count, store.next = left.next + count ∧ other.next = right.next + count
  contents : ∀ id twin, Same p left right roots store id twin →
    (store.find? id = none ∧ other.find? twin = none) ∨
      ∃ inst otherInst, store.find? id = some inst ∧ other.find? twin = some otherInst ∧
        inst.Related (Same p left right roots store) otherInst

theorem same_mono {store later : Store} (grown : store.next ≤ later.next) (id twin : InstanceNo)
    (same : Same p left right roots store id twin) : Same p left right roots later id twin := by
  rcases same with reached | ⟨offset, isLater, isTwin, given⟩
  · exact Or.inl reached
  · exact Or.inr ⟨offset, isLater, isTwin, Nat.lt_of_lt_of_le given grown⟩

def coupling : Coupling where
  Stores := Stores p left right roots
  Same store _ := Same p left right roots store
  Faults store _ := Fault.Related (Same p left right roots store)
  Events store _ := Event.Related (Same p left right roots store)
  Classes := Eq
  Methods method twin := method = twin ∧ method.body.isExpr = true
  events_mono := by
    intro store other after otherAfter grows event twin related
    cases related with
    | allocated same => exact .allocated (grows _ _ same) _ _
    | dispatched same => exact .dispatched (grows _ _ same) _ _ _ _ _

variable {left roots}

theorem related_rename (right : Store) {values : List Value}
    (reached : ∀ id, .object id ∈ values → Reachable left roots id) :
    List.Forall₂ (Value.Related (Same p left right roots left)) values
      (values.map (Value.rename p)) := by
  rw [List.forall₂_map_right_iff, List.forall₂_same]
  intro value member
  cases value with
  | object id => exact .object (Or.inl ⟨reached id member, rfl⟩)
  | _ => exact .plain rfl

variable {p right}

theorem same_of_next_eq {store later : Store} (sameNext : later.next = store.next) :
    Same p left right roots later = Same p left right roots store := by
  funext id twin
  simp only [Same, sameNext]

section Matched
variable (matched : Mirrored p left right roots)
include matched

/-- Different numbers correspond to different ones. -/
theorem same_iff_same {store : Store} {id twin other otherTwin : InstanceNo}
    (same : Same p left right roots store id twin)
    (otherSame : Same p left right roots store other otherTwin) :
    other = id ↔ otherTwin = twin := by
  rcases same with ⟨reached, rfl⟩ | ⟨offset, rfl, rfl, _⟩
  · have isOld := matched.leftGiven id reached
    have twinIsOld := matched.rightGiven (p id) (matched.onto.mapsTo reached)
    rcases otherSame with ⟨otherReached, rfl⟩ | ⟨otherOffset, rfl, rfl, _⟩
    · constructor
      · rintro rfl
        rfl
      · exact fun sameTwin => matched.onto.injOn otherReached reached sameTwin
    · constructor
      · rintro rfl
        exact absurd isOld (Nat.not_lt_of_le (Nat.le_add_right _ _))
      · intro sameTwin
        rw [← sameTwin] at twinIsOld
        exact absurd twinIsOld (Nat.not_lt_of_le (Nat.le_add_right _ _))
  · rcases otherSame with ⟨otherReached, rfl⟩ | ⟨otherOffset, rfl, rfl, _⟩
    · have isOld := matched.leftGiven other otherReached
      have twinIsOld := matched.rightGiven (p other) (matched.onto.mapsTo otherReached)
      constructor
      · rintro rfl
        exact absurd isOld (Nat.not_lt_of_le (Nat.le_add_right _ _))
      · intro sameTwin
        rw [sameTwin] at twinIsOld
        exact absurd twinIsOld (Nat.not_lt_of_le (Nat.le_add_right _ _))
    · rw [Nat.add_left_cancel_iff, Nat.add_left_cancel_iff]

theorem stores_start : Stores p left right roots left right where
  counted := ⟨0, rfl, rfl⟩
  contents id twin same := by
    rcases same with ⟨reached, rfl⟩ | ⟨offset, isLater, _, given⟩
    · rw [matched.contents id reached]
      cases live : left.find? id with
      | none => exact Or.inl ⟨rfl, rfl⟩
      | some inst =>
          have slots := related_rename p right fun held => reached.slot live
          exact Or.inr ⟨inst, _, rfl, rfl, rfl, rfl, slots⟩
    · rw [isLater] at given
      exact absurd given (Nat.not_lt_of_le (Nat.le_add_right _ _))

/-- Corresponding changes of corresponding instances. -/
theorem stores_put {store other : Store} (stores : Stores p left right roots store other)
    {id twin : InstanceNo} (same : Same p left right roots store id twin) {old oldTwin : Instance}
    (live : store.find? id = some old) (liveTwin : other.find? twin = some oldTwin)
    {changed changedTwin : Instance}
    (related : changed.Related (Same p left right roots store) changedTwin) :
    Stores p left right roots (store.put id (some changed))
      (other.put twin (some changedTwin)) := by
  obtain ⟨positive, given⟩ := Store.bounds_of_find? live
  obtain ⟨twinPositive, twinGiven⟩ := Store.bounds_of_find? liveTwin
  refine ⟨?_, ?_⟩
  · rw [Store.next_put, Store.next_put]
    exact stores.counted
  · rw [same_of_next_eq (store.next_put id (some changed))]
    intro wanted wantedTwin wantedSame
    rw [store.find?_put id wanted _ positive given,
      other.find?_put twin wantedTwin _ twinPositive twinGiven]
    by_cases isChanged : wanted = id
    · rw [if_pos isChanged, if_pos ((same_iff_same matched same wantedSame).mp isChanged)]
      exact Or.inr ⟨changed, changedTwin, rfl, rfl, related⟩
    · rw [if_neg isChanged,
        if_neg fun sameTwin => isChanged ((same_iff_same matched same wantedSame).mpr sameTwin)]
      exact stores.contents wanted wantedTwin wantedSame

end Matched

theorem same_next {store other : Store} (stores : Stores p left right roots store other)
    (cls : Class) (domain : Domain) :
    Same p left right roots (store.allocate cls domain) store.next other.next := by
  obtain ⟨count, isLater, isTwin⟩ := stores.counted
  refine Or.inr ⟨count, isLater, isTwin, ?_⟩
  rw [Store.next_allocate]
  exact Nat.lt_succ_self _

theorem stores_allocate (matched : Mirrored p left right roots) {store other : Store}
    (stores : Stores p left right roots store other) (cls : Class) (domain : Domain) :
    Stores p left right roots (store.allocate cls domain) (other.allocate cls domain) := by
  have grows := same_mono p left right roots (store.next_le_allocate cls domain)
  refine ⟨?_, ?_⟩
  · obtain ⟨count, isLater, isTwin⟩ := stores.counted
    exact ⟨count + 1, by rw [Store.next_allocate, isLater, Nat.add_assoc],
      by rw [Store.next_allocate, isTwin, Nat.add_assoc]⟩
  · intro id twin same
    have newOrOld := same_iff_same matched (same_next stores cls domain) same
    rw [Store.find?_allocate, Store.find?_allocate]
    by_cases isNew : id = store.next
    · rw [if_pos isNew, if_pos (newOrOld.mp isNew)]
      refine Or.inr ⟨_, _, rfl, rfl, rfl, rfl, List.forall₂_same.mpr fun value inSlots => ?_⟩
      cases value with
      | object held => exact absurd inSlots (Instance.not_object_mem_ofClass cls domain held)
      | _ => exact .plain rfl
    · rw [if_neg isNew, if_neg fun sameTwin => isNew (newOrOld.mpr sameTwin)]
      have wasSame : Same p left right roots store id twin := by
        refine same.imp_right ?_
        rintro ⟨offset, isLater, isTwin, given⟩
        rw [Store.next_allocate] at given
        exact ⟨offset, isLater, isTwin, Nat.lt_of_le_of_ne (Nat.le_of_lt_succ given) isNew⟩
      refine (stores.contents id twin wasSame).imp_right ?_
      rintro ⟨inst, otherInst, live, otherLive, related⟩
      exact ⟨inst, otherInst, live, otherLive, related.mono grows⟩

/-! ## The steps of a call -/

section Steps
variable {store other : Store} (stores : Stores p left right roots store other)

theorem ends_same {α : Type} {outcome : Outcome α} (unnumbered : Unnumbered outcome)
    (store other : Store) :
    (coupling p left right roots).Ends store other (Link.same α) outcome outcome :=
  Coupling.ends_of_unnumbered (fun _ noInstance => .plain noInstance) unnumbered
    (fun _ _ => rfl) fun _ => rfl

theorem position_of_related {inst otherInst : Instance}
    {Twins : InstanceNo → InstanceNo → Prop} (related : inst.Related Twins otherInst)
    (view : Class) (field : String) :
    otherInst.position view field = inst.position view field := by
  simp only [Instance.position, related.cls, related.slots.length_eq]

include stores in
theorem ends_get {id twin : InstanceNo} (same : Same p left right roots store id twin) :
    (coupling p left right roots).Ends store other
      (Link.matching (Instance.Related (Same p left right roots store))) (store.get id)
      (other.get twin) := by
  rcases stores.contents id twin same with
    ⟨absent, otherAbsent⟩ | ⟨inst, otherInst, live, otherLive, related⟩
  · simp only [Store.get, absent, otherAbsent]
    exact .fault (.numbered same)
  · simp only [Store.get, live, otherLive]
    exact .ok related (List.forall_mem_nil _)

theorem ends_read {inst otherInst : Instance}
    (related : inst.Related (Same p left right roots store) otherInst) (view : Class)
    (field : String) :
    (coupling p left right roots).Ends store other Link.value (inst.read view field)
      (otherInst.read view field) := by
  unfold Instance.read
  rw [position_of_related related]
  refine (ends_same (unnumbered_position inst view field) store other).bind_same ?_
  intro slot
  have sameLength := related.slots.length_eq
  by_cases inside : slot < inst.slots.length
  · have otherInside : slot < otherInst.slots.length := sameLength ▸ inside
    rw [List.getElem?_eq_getElem inside, List.getElem?_eq_getElem otherInside]
    refine .ok trivial ?_
    intro pair member
    rw [List.mem_singleton.mp member]
    exact related.slots.get inside otherInside
  · have otherOutside : ¬ slot < otherInst.slots.length := sameLength ▸ inside
    rw [List.getElem?_eq_none (Nat.le_of_not_lt inside),
      List.getElem?_eq_none (Nat.le_of_not_lt otherOutside)]
    exact .breach

theorem forall₂_set {values others : List Value} {Twins : InstanceNo → InstanceNo → Prop}
    (related : List.Forall₂ (Value.Related Twins) values others) {value twin : Value}
    (alike : value.Related Twins twin) (slot : Nat) :
    List.Forall₂ (Value.Related Twins) (values.set slot value) (others.set slot twin) := by
  induction related generalizing slot with
  | nil => exact .nil
  | cons head tail ih =>
      cases slot with
      | zero => exact .cons alike tail
      | succ slot => exact .cons head (ih slot)

theorem ends_write {inst otherInst : Instance}
    (related : inst.Related (Same p left right roots store) otherInst) {value twin : Value}
    (alike : value.Related (Same p left right roots store) twin) (view : Class) (field : String) :
    (coupling p left right roots).Ends store other
      (Link.matching (Instance.Related (Same p left right roots store)))
      (inst.write view field value) (otherInst.write view field twin) := by
  unfold Instance.write
  rw [position_of_related related]
  refine (ends_same (unnumbered_position inst view field) store other).bind_same ?_
  intro slot
  refine .ok ⟨related.cls, related.domain, ?_⟩ (List.forall_mem_nil _)
  exact forall₂_set related.slots alike slot

end Steps

section Within
variable (hierarchy : Hierarchy) (options : Options)

theorem agree_domainOf (id twin : InstanceNo) :
    (coupling p left right roots).Agree [(.object id, .object twin)] (Link.same Domain)
      (Action.query fun store => store.domainOf id)
      (Action.query fun store => store.domainOf twin) := by
  apply Coupling.agree_query
  intro store other stores given
  have same := (given _ List.mem_cons_self).same_of_object
  refine (ends_get stores same).map fun inst otherInst related => ?_
  exact .ok related.domain (List.forall_mem_nil _)

theorem agree_exact (id twin : InstanceNo) :
    (coupling p left right roots).Agree [(.object id, .object twin)] (Link.same ClassId)
      (Action.query fun store => store.classOf id)
      (Action.query fun store => store.classOf twin) := by
  apply Coupling.agree_query
  intro store other stores given
  have same := (given _ List.mem_cons_self).same_of_object
  refine (ends_get stores same).map fun inst otherInst related => ?_
  exact .ok related.cls (List.forall_mem_nil _)

theorem agree_read (id twin : InstanceNo) (field : String) :
    (coupling p left right roots).Agree [(.object id, .object twin)] Link.value
      (Dispatcher.read ⟨hierarchy, options⟩ id field)
      (Dispatcher.read ⟨hierarchy, options⟩ twin field) := by
  apply Coupling.agree_query
  intro store other stores given
  have same := (given _ List.mem_cons_self).same_of_object
  refine (ends_get stores same).bind fun inst otherInst related => ?_
  rw [← related.cls]
  refine (ends_same (unnumbered_get _ inst.cls) store other).bind_same ?_
  intro view
  exact ends_read related view field

theorem agree_write (matched : Mirrored p left right roots) (id twin : InstanceNo)
    (field : String) (value otherValue : Value) :
    (coupling p left right roots).Agree
      [(.object id, .object twin), (value, otherValue)] (Link.same Unit)
      (Dispatcher.write ⟨hierarchy, options⟩ id field value)
      (Dispatcher.write ⟨hierarchy, options⟩ twin field otherValue) := by
  intro store other stores given
  have same := (given _ List.mem_cons_self).same_of_object
  have alike := given _ (List.mem_cons_of_mem _ List.mem_cons_self)
  unfold Dispatcher.write Action.update
  rcases stores.contents id twin same with
    ⟨absent, otherAbsent⟩ | ⟨inst, otherInst, live, otherLive, related⟩
  · have failed : store.write hierarchy.classes id field value = refuse (.unknownInstance id) := by
      simp [Store.write, Store.get, absent, refuse, bind, Except.bind]
    have otherFailed : other.write hierarchy.classes twin field otherValue =
        refuse (.unknownInstance twin) := by
      simp [Store.write, Store.get, otherAbsent, refuse, bind, Except.bind]
    simp only [failed, otherFailed]
    exact Coupling.reached_of_ends stores (.fault (.numbered same))
  · have changes : (coupling p left right roots).Ends store other
        (Link.matching (Instance.Related (Same p left right roots store)))
        (hierarchy.classes.get inst.cls >>= fun view => inst.write view field value)
        (hierarchy.classes.get inst.cls >>= fun view => otherInst.write view field otherValue) := by
      refine (ends_same (unnumbered_get _ inst.cls) store other).bind_same ?_
      intro view
      exact ends_write related alike view field
    simp only [Store.write_eq_map live, Store.write_eq_map otherLive, ← related.cls]
    revert changes
    generalize (hierarchy.classes.get inst.cls >>= fun view => inst.write view field value) = first
    generalize (hierarchy.classes.get inst.cls >>= fun view =>
      otherInst.write view field otherValue) = second
    intro changes
    cases changes with
    | fault alike => exact Coupling.reached_of_ends stores (.fault alike)
    | breach => exact Coupling.reached_of_ends stores .breach
    | @ok changed otherChanged shape held =>
        have sameNext := store.next_put id (some changed)
        refine ⟨stores_put matched stores same live otherLive shape,
          same_mono p left right roots (Nat.le_of_eq sameNext.symm), .nil, ?_⟩
        exact .ok rfl (List.forall_mem_nil _)

theorem agree_allocate (matched : Mirrored p left right roots) (cls : String) (domain : Domain) :
    (coupling p left right roots).Agree [] Link.number
      (Dispatcher.allocate ⟨hierarchy, options⟩ cls domain)
      (Dispatcher.allocate ⟨hierarchy, options⟩ cls domain) := by
  refine (Coupling.agree_lift (ends_same (unnumbered_lookup _ cls))).bind_same ?_
  intro found store other stores _
  have newSame := same_next stores found domain
  refine ⟨stores_allocate matched stores found domain,
    same_mono p left right roots (store.next_le_allocate found domain),
    .cons (.allocated newSame _ _) .nil, .ok trivial ?_⟩
  intro pair member
  rw [List.mem_singleton.mp member]
  exact .object newSame

theorem within (matched : Mirrored p left right roots) :
    (coupling p left right roots).Within ⟨hierarchy, options⟩ where
  classes := rfl
  methods := rfl
  raise _ _ _ noInstance := .plain noInstance
  report _ _ _ _ level cls method owner depth same := .dispatched same level cls method owner depth
  domain := agree_domainOf
  exact := agree_exact
  read := agree_read hierarchy options
  write := agree_write hierarchy options matched
  allocate := agree_allocate hierarchy options matched

end Within

theorem extend_of_same (matched : Mirrored p left right roots) {store : Store} {count : Nat}
    (counted : store.next = left.next + count) (id twin : InstanceNo)
    (same : Same p left right roots store id twin) :
    extend p left.next right.next count id = twin := by
  rcases same with ⟨reached, rfl⟩ | ⟨offset, rfl, rfl, given⟩
  · have isOld := matched.leftGiven id reached
    exact if_neg fun isNew => absurd isNew.1 (Nat.not_le_of_lt isOld)
  · rw [counted] at given
    have isNew : left.next ≤ left.next + offset ∧ left.next + offset < left.next + count :=
      ⟨Nat.le_add_right _ _, given⟩
    rw [extend, if_pos isNew, Nat.add_sub_cancel_left]

theorem eq_rename_of_ends {q : InstanceNo → InstanceNo} {store other : Store}
    (follows : ∀ id twin, Same p left right roots store id twin → q id = twin)
    {first second : Outcome Value}
    (ends : (coupling p left right roots).Ends store other Link.value first second) :
    second = Outcome.rename q first := by
  cases ends with
  | ok shape held =>
      have alike := held _ List.mem_cons_self
      rw [Outcome.rename, ← alike.eq_rename follows]
  | fault alike => rw [Outcome.rename, ← Fault.Related.eq_rename follows alike]
  | breach => rfl

end Renaming

namespace Dispatcher

/-- If `p` matches what receiver and arguments reach in one store with what their
images reach in another, the same call does the same in both, up to `p` and to the
numbers that it gives out. -/
theorem invoke_renamed (hierarchy : Hierarchy) (isSealed : hierarchy.Sealed)
    (plain : hierarchy.Plain) (options : Options) (left right : Store)
    (p : InstanceNo → InstanceNo) (reference : Reference) (signature : Signature)
    (args : List Value) (matched : Mirrored p left right (.object reference.target :: args)) :
    let dispatcher : Dispatcher := ⟨hierarchy, options⟩
    let first := dispatcher.invoke reference signature args left
    let second := dispatcher.invoke { reference with target := p reference.target } signature
      (args.map (Value.rename p)) right
    ∃ count, first.store.next = left.next + count ∧ second.store.next = right.next + count ∧
      let q := extend p left.next right.next count
      second.result = Outcome.rename q first.result ∧
      second.events = first.events.map (Event.rename q) ∧
      ∀ id, Reachable left (.object reference.target :: args) id ∨
          left.next ≤ id ∧ id < left.next + count →
        second.store.find? (q id) = (first.store.find? id).map (Instance.rename q) := by
  intro dispatcher first second
  obtain ⟨accepted, flat⟩ := isSealed.exists_flat
  have respected := (Renaming.within hierarchy options matched).respected flat plain
  have permitted := unnumbered_permits hierarchy reference.staticType signature
  have agree := agree_invoke respected reference { reference with target := p reference.target }
    signature args (args.map (Value.rename p)) (List.length_map _).symm
    (Renaming.ends_same permitted)
  have rootsReached : ∀ id, .object id ∈ Value.object reference.target :: args →
      Reachable left (.object reference.target :: args) id := fun id isRoot => .root isRoot
  have rootsRelated := Renaming.related_rename p right rootsReached
  have rootsSame : ∀ pair ∈ (Value.object reference.target, Value.object (p reference.target)) ::
      args.zip (args.map (Value.rename p)),
      pair.1.Related (Renaming.Same p left right (.object reference.target :: args) left)
        pair.2 := fun pair member => (List.forall₂_iff_zip.mp rootsRelated).2 member
  obtain ⟨stores, _, events, ends⟩ :=
    agree left right (Renaming.stores_start matched) rootsSame
  obtain ⟨count, counted, otherCounted⟩ := stores.counted
  have follows := Renaming.extend_of_same matched counted
  refine ⟨count, counted, otherCounted, Renaming.eq_rename_of_ends follows ends,
    eq_map_of_forall₂ events fun _ _ alike => Event.Related.eq_rename follows alike, ?_⟩
  intro id inside
  have same : Renaming.Same p left right (.object reference.target :: args) first.store id
      (extend p left.next right.next count id) := by
    rcases inside with reached | ⟨since, before⟩
    · have isOld := matched.leftGiven id reached
      refine Or.inl ⟨reached, if_neg fun isNew => absurd isNew.1 (Nat.not_le_of_lt isOld)⟩
    · refine Or.inr ⟨id - left.next, (Nat.add_sub_of_le since).symm,
        if_pos ⟨since, before⟩, ?_⟩
      rw [counted]
      exact before
  rcases stores.contents id _ same with
    ⟨absent, otherAbsent⟩ | ⟨inst, otherInst, live, otherLive, related⟩
  · rw [absent, otherAbsent]
    rfl
  · rw [live, otherLive, Instance.Related.eq_rename follows related]
    rfl

/-- The last two instances of `sampleStore` under numbers that are three higher. -/
def movedStore : Store :=
  ⟨#[none, none, none, none,
     some ⟨⟨1, 0⟩, .managed, [.object 6, .str "node"]⟩,
     some ⟨⟨1, 1⟩, .unmanaged, [.object 5, .str "node", .str "leaf"]⟩]⟩

theorem mirrored_movedStore : Mirrored (· + 3) sampleStore movedStore [.object 2] := by
  have onlyTwo : ∀ id, Reachable sampleStore [.object 2] id → id = 2 ∨ id = 3 := by
    intro id reached
    induction reached with
    | root isRoot => exact Or.inl (by simpa using isRoot)
    | slot _ live held owner =>
        rcases owner with rfl | rfl <;> cases live <;> simp at held <;> simp [held]
  have onlyMoved : ∀ id, Reachable movedStore [.object 5] id → id = 5 ∨ id = 6 := by
    intro id reached
    induction reached with
    | root isRoot => exact Or.inl (by simpa using isRoot)
    | slot _ live held owner =>
        rcases owner with rfl | rfl <;> cases live <;> simp at held <;> simp [held]
  have two : Reachable sampleStore [.object 2] 2 := .root List.mem_cons_self
  have three : Reachable sampleStore [.object 2] 3 := two.slot rfl List.mem_cons_self
  have five : Reachable movedStore [.object 5] 5 := .root List.mem_cons_self
  have six : Reachable movedStore [.object 5] 6 := five.slot rfl List.mem_cons_self
  refine ⟨⟨?_, ?_, ?_⟩, ?_, ?_, ?_⟩
  · intro id reached
    rcases onlyTwo id reached with rfl | rfl
    · exact five
    · exact six
  · intro id _ other _ same
    exact Nat.add_right_cancel same
  · intro id reached
    rcases onlyMoved id reached with rfl | rfl
    · exact ⟨2, two, rfl⟩
    · exact ⟨3, three, rfl⟩
  · intro id reached
    rcases onlyTwo id reached with rfl | rfl <;> decide
  · intro id reached
    rcases onlyMoved id reached with rfl | rfl <;> decide
  · intro id reached
    rcases onlyTwo id reached with rfl | rfl <;> rfl

/-- A call that fails midway does the same under moved numbers. -/
theorem grow_renamed :
    Mirrored (· + 3) sampleStore movedStore [.object 2] ∧
      ∃ count, (Dispatcher.invoke ⟨sampleHierarchy, {}⟩ ⟨5, ⟨1, 0⟩⟩ ⟨"grow", 0⟩ []
          movedStore).store.next = 7 + count ∧
        (Dispatcher.invoke ⟨sampleHierarchy, {}⟩ ⟨5, ⟨1, 0⟩⟩ ⟨"grow", 0⟩ [] movedStore).result =
          Outcome.rename (extend (· + 3) 4 7 count)
            (Dispatcher.invoke ⟨sampleHierarchy, {}⟩ ⟨2, ⟨1, 0⟩⟩ ⟨"grow", 0⟩ []
              sampleStore).result := by
  obtain ⟨count, _, counted, renamed, _⟩ := invoke_renamed sampleHierarchy sampleHierarchy_sealed
    sampleHierarchy_plain {} sampleStore movedStore (· + 3) ⟨2, ⟨1, 0⟩⟩ ⟨"grow", 0⟩ []
    mirrored_movedStore
  exact ⟨mirrored_movedStore, count, counted, renamed⟩

end Dispatcher

end Lineage
