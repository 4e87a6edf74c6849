import Lineage.Proofs.Call.Coupling
import Lineage.Proofs.Call.Failures

/-!
# Disciplines

A discipline is an invariant of stores together with the numbers that a call may
hold in a store.  It couples a dispatcher with itself: stores correspond to
themselves if they are valid, and numbers if they are held.  So if reading, writing
and allocating keep to a discipline, every call that runs expression bodies only
keeps to it, too (`keeps_invoke`).
-/

set_option autoImplicit false

namespace Lineage

/-- An invariant of stores, and the numbers that a call may hold in a store. -/
structure Discipline where
  Valid : Store → Prop
  Held : Store → InstanceNo → Prop

namespace Discipline

/-- Reading, writing and allocating keep to the discipline. -/
structure Respected (discipline : Discipline) (classes : ClassTable) : Prop where
  read : ∀ store target field id, discipline.Valid store → discipline.Held store target →
    store.read classes target field = .ok (.object id) → discipline.Held store id
  write : ∀ store target field value changed, discipline.Valid store →
    discipline.Held store target → (∀ id, value = .object id → discipline.Held store id) →
    store.write classes target field value = .ok changed →
      discipline.Valid changed ∧ ∀ id, discipline.Held store id → discipline.Held changed id
  allocate : ∀ store cls domain, discipline.Valid store →
    discipline.Valid (store.allocate cls domain) ∧
    (∀ id, discipline.Held store id → discipline.Held (store.allocate cls domain) id) ∧
    discipline.Held (store.allocate cls domain) store.next

def Same (discipline : Discipline) (store : Store) (id twin : InstanceNo) : Prop :=
  id = twin ∧ discipline.Held store id

/-- An instance is missed although it is there or its number is not held. -/
def Bad (discipline : Discipline) (store : Store) (failure : Failure) : Prop :=
  ∃ id, failure = .fault (.unknownInstance id) ∧
    ¬ (discipline.Held store id ∧ store.find? id = none)

def coupling (discipline : Discipline) : Coupling where
  Stores store other := store = other ∧ discipline.Valid store
  Same store _ := discipline.Same store
  Faults store _ cause other := cause = other ∧ ¬ discipline.Bad store (.fault cause)
  Events _ _ := Eq
  Classes := Eq
  Methods method twin := method = twin ∧ method.body.isExpr = true
  events_mono _ _ _ same := same

variable {discipline : Discipline} {store : Store}

theorem related_iff (value other : Value) :
    value.Related (discipline.Same store) other ↔
      value = other ∧ ∀ id, value = .object id → discipline.Held store id := by
  constructor
  · intro related
    cases related with
    | object same =>
        obtain ⟨rfl, held⟩ := same
        refine ⟨rfl, ?_⟩
        rintro id isObject
        cases isObject
        exact held
    | plain noObject =>
        refine ⟨rfl, ?_⟩
        rintro id rfl
        cases noObject
  · rintro ⟨rfl, held⟩
    cases value with
    | object id => exact .object ⟨rfl, held id rfl⟩
    | _ => exact .plain rfl

theorem onlyOdd_bad : OnlyOdd (discipline.Bad store) := by
  rintro failure ⟨id, rfl, _⟩
  exact .unknown id

theorem not_bad_breach : ¬ discipline.Bad store .breach := by
  rintro ⟨id, impossible, _⟩
  cases impossible

theorem serves_of_held {id : InstanceNo} (held : discipline.Held store id) :
    store.Serves (discipline.Bad store) id := by
  rintro ⟨other, same, notMissed⟩
  cases same
  cases live : store.find? id with
  | none => exact absurd ⟨held, live⟩ notMissed
  | some inst => exact ⟨inst, rfl⟩

/-- An outcome whose objects are held corresponds to itself. -/
theorem ends_self {α : Type} (link : Link α α) {outcome : Outcome α}
    (spares : Spares (discipline.Bad store) outcome)
    (shape : ∀ value, outcome = .ok value → link.Shape value value)
    (held : ∀ value, outcome = .ok value → ∀ pair ∈ link.held value value,
      pair.1.Related (discipline.Same store) pair.2) (other : Store) :
    discipline.coupling.Ends store other link outcome outcome := by
  rcases outcome with (cause | _) | value
  · exact .fault ⟨rfl, spares _ rfl⟩
  · exact .breach
  · exact .ok (shape value rfl) (held value rfl)

theorem ends_same {α : Type} {outcome : Outcome α} (unnumbered : Unnumbered outcome)
    (other : Store) :
    discipline.coupling.Ends store other (Link.same α) outcome outcome :=
  ends_self (Link.same α) (.of_unnumbered onlyOdd_bad not_bad_breach unnumbered)
    (fun _ _ => rfl) (fun _ _ => List.forall_mem_nil _) other

/-- Whoever asks the same store, of a number that is held, gets the same answer. -/
theorem agree_ask {α : Type} (link : Link α α) (ask : InstanceNo → Store → Outcome α)
    (spares : ∀ store id, store.Serves (discipline.Bad store) id →
      Spares (discipline.Bad store) (ask id store))
    (shape : ∀ value, link.Shape value value)
    (held : ∀ store id value, discipline.Valid store → discipline.Held store id →
      ask id store = .ok value → ∀ pair ∈ link.held value value,
        pair.1.Related (discipline.Same store) pair.2) (id twin : InstanceNo) :
    discipline.coupling.Agree [(.object id, .object twin)] link (Action.query (ask id))
      (Action.query (ask twin)) := by
  apply Coupling.agree_query
  rintro store _ ⟨rfl, valid⟩ given
  obtain ⟨rfl, isHeld⟩ := (given _ List.mem_cons_self).same_of_object
  exact ends_self link (spares store id (serves_of_held isHeld)) (fun value _ => shape value)
    (fun value run => held store id value valid isHeld run) store

section Steps
variable {classes : ClassTable} (respected : discipline.Respected classes)
include respected

theorem agree_read (id twin : InstanceNo) (field : String) :
    discipline.coupling.Agree [(.object id, .object twin)] Link.value
      (Action.query fun store => store.read classes id field)
      (Action.query fun store => store.read classes twin field) := by
  refine agree_ask _ (fun id store => store.read classes id field)
    (fun _ _ serves => spares_read onlyOdd_bad.sparesTables serves classes field)
    (fun _ => trivial) ?_ id twin
  intro store id value valid held read pair member
  rw [List.mem_singleton.mp member, related_iff]
  refine ⟨rfl, ?_⟩
  rintro content rfl
  exact respected.read store id field content valid held read

theorem agree_write (id twin : InstanceNo) (field : String) (value other : Value) :
    discipline.coupling.Agree [(.object id, .object twin), (value, other)] (Link.same Unit)
      (Action.update fun store => store.write classes id field value)
      (Action.update fun store => store.write classes twin field other) := by
  rintro store _ ⟨rfl, valid⟩ given
  obtain ⟨rfl, held⟩ := (given _ List.mem_cons_self).same_of_object
  obtain ⟨rfl, valueHeld⟩ :=
    (related_iff value other).mp (given _ (List.mem_cons_of_mem _ List.mem_cons_self))
  unfold Action.update
  cases written : store.write classes id field value with
  | error failure =>
      have stores : discipline.coupling.Stores store store := ⟨rfl, valid⟩
      have spares := spares_write onlyOdd_bad.sparesTables (serves_of_held held) classes field value
      rw [written] at spares
      simp only [written]
      exact Coupling.reached_of_ends stores (ends_self (Link.same Unit) spares.error nofun nofun _)
  | ok changed =>
      obtain ⟨changedValid, grows⟩ :=
        respected.write store id field value changed valid held valueHeld written
      simp only [written]
      exact ⟨⟨rfl, changedValid⟩, fun _ _ same => ⟨same.1, grows _ same.2⟩, .nil,
        .ok rfl (List.forall_mem_nil _)⟩

theorem agree_allocate (cls : Class) (domain : Domain) :
    discipline.coupling.Agree [] Link.number (Action.allocate cls domain)
      (Action.allocate cls domain) := by
  rintro store _ ⟨rfl, valid⟩ _
  obtain ⟨allocatedValid, grows, fresh⟩ := respected.allocate store cls domain valid
  refine ⟨⟨rfl, allocatedValid⟩, fun _ _ same => ⟨same.1, grows _ same.2⟩, .cons rfl .nil,
    .ok trivial ?_⟩
  intro pair member
  rw [List.mem_singleton.mp member]
  exact .object ⟨rfl, fresh⟩

theorem agree_allocateNamed (cls : String) (domain : Domain) :
    discipline.coupling.Agree [] Link.number (Action.allocateNamed classes cls domain)
      (Action.allocateNamed classes cls domain) := by
  have known := unnumbered_lookup classes cls
  refine (Coupling.agree_lift fun _ _ => ends_same known _).bind_same ?_
  intro found
  exact agree_allocate respected found domain

end Steps

variable {hierarchy : Hierarchy} (options : Options)
  (respected : discipline.Respected hierarchy.classes)
include respected

theorem within : discipline.coupling.Within ⟨hierarchy, options⟩ where
  classes := rfl
  methods := rfl
  raise _ _ cause named := by
    refine ⟨rfl, ?_⟩
    rintro ⟨id, same, _⟩
    cases same
    exact named id rfl
  report _ _ _ _ _ _ _ _ _ same := by
    rw [same.1]
    rfl
  domain := agree_ask _ (fun id store => store.domainOf id)
    (fun _ _ serves => (spares_get serves).map _) (fun _ => rfl)
    fun _ _ _ _ _ _ => List.forall_mem_nil _
  exact := agree_ask _ (fun id store => store.classOf id)
    (fun _ _ serves => (spares_get serves).map _) (fun _ => rfl)
    fun _ _ _ _ _ _ => List.forall_mem_nil _
  read := agree_read respected
  write := agree_write respected
  allocate := agree_allocateNamed respected

end Discipline

/-! ## One run -/

/-- What an effect leaves of a discipline: a valid store, all numbers that were held, and
objects that are held in the values it gives.  An instance is missed only if its number is
held and it is not there. -/
structure Discipline.Kept (discipline : Discipline) {α : Type} (gives : α → List Value)
    (store : Store) (effect : Effect α) : Prop where
  valid : discipline.Valid effect.store
  grows : ∀ id, discipline.Held store id → discipline.Held effect.store id
  missed : ∀ id, effect.result = refuse (.unknownInstance id) →
    discipline.Held effect.store id ∧ effect.store.find? id = none
  gives : ∀ value, effect.result = .ok value → ∀ id, .object id ∈ gives value →
    discipline.Held effect.store id

/-- Started on a valid store with the objects among the given values held, the action keeps
the discipline. -/
def Discipline.Keeps (discipline : Discipline) {α : Type} (given : List Value)
    (gives : α → List Value) (action : Action α) : Prop :=
  ∀ store, discipline.Valid store → (∀ id, .object id ∈ given → discipline.Held store id) →
    discipline.Kept gives store (action store)

namespace Discipline

section Actions
variable {discipline : Discipline} {α β : Type} {given : List Value} {gives : α → List Value}
  {action : Action α}

/-- An action keeps a discipline if it agrees with itself. -/
theorem keeps_of_agree {link : Link α α} (agree : discipline.coupling.Agree
    (given.map fun value => (value, value)) link action action) :
    discipline.Keeps given (fun value => (link.held value value).map Prod.fst) action := by
  intro store valid held
  have related : ∀ pair ∈ given.map fun value => (value, value),
      pair.1.Related (discipline.Same store) pair.2 := by
    intro pair member
    obtain ⟨value, isGiven, rfl⟩ := List.mem_map.mp member
    rw [related_iff]
    refine ⟨rfl, ?_⟩
    rintro id rfl
    exact held id isGiven
  obtain ⟨⟨_, validAfter⟩, grows, _, ends⟩ := agree store store ⟨rfl, valid⟩ related
  refine ⟨validAfter, fun id isHeld => (grows id id ⟨rfl, isHeld⟩).2, ?_, ?_⟩
  · intro id missing
    rw [missing] at ends
    cases ends with
    | fault alike =>
        by_contra notMissed
        exact alike.2 ⟨id, rfl, notMissed⟩
  · intro value returned id isObject
    rw [returned] at ends
    obtain ⟨pair, member, isFirst⟩ := List.mem_map.mp isObject
    cases ends with
    | ok shape objects =>
        exact ((related_iff pair.1 pair.2).mp (objects pair member)).2 id isFirst

theorem Keeps.weaken {more : List Value} (keeps : discipline.Keeps given gives action)
    (included : given ⊆ more) : discipline.Keeps more gives action :=
  fun store valid held => keeps store valid fun id isGiven => held id (included isGiven)

theorem keeps_lift {outcome : Outcome α} (unnumbered : Unnumbered outcome)
    (known : ∀ value, outcome = .ok value → gives value ⊆ given) :
    discipline.Keeps given gives (Action.lift outcome) := by
  intro store valid held
  refine ⟨valid, fun _ isHeld => isHeld, ?_, ?_⟩
  · intro id missing
    exact absurd missing (unnumbered id)
  · intro value isValue id isObject
    exact held id (known value isValue isObject)

theorem keeps_pure (value : α) (known : gives value ⊆ given) :
    discipline.Keeps given gives (pure value) := by
  apply keeps_lift (unnumbered_ok value)
  rintro _ ⟨⟩
  exact known

theorem keeps_raise {cause : Fault} (plain : ∀ id, cause ≠ .unknownInstance id) :
    discipline.Keeps given gives (Action.raise cause) :=
  keeps_lift (ordinary_refuse plain).unnumbered nofun

/-- What the first action gives is held for the second. -/
theorem Keeps.bind {next : α → Action β} {last : β → List Value}
    (first : discipline.Keeps given gives action)
    (rest : ∀ value, discipline.Keeps (gives value ++ given) last (next value)) :
    discipline.Keeps given last (action >>= next) := by
  intro store valid held
  obtain ⟨validAfter, grows, missed, objects⟩ := first store valid held
  rcases run : action store with ⟨failure | value, reached, events⟩
  · rw [run] at validAfter grows missed
    rw [Action.run_bind_of_error run]
    refine ⟨validAfter, grows, ?_, nofun⟩
    intro id missing
    cases missing
    exact missed id rfl
  · rw [run] at validAfter grows objects
    have stillHeld : ∀ id, .object id ∈ gives value ++ given → discipline.Held reached id := by
      intro id isHeld
      rcases List.mem_append.mp isHeld with isObject | isGiven
      · exact objects value rfl id isObject
      · exact grows id (held id isGiven)
    obtain ⟨validLast, growsLast, missedLast, objectsLast⟩ :=
      rest value reached validAfter stillHeld
    rw [Action.run_bind_of_ok run]
    exact ⟨validLast, fun id isHeld => growsLast id (grows id isHeld), missedLast, objectsLast⟩

end Actions

section Stores
variable {discipline : Discipline} {classes : ClassTable}
  (respected : discipline.Respected classes)
include respected

theorem keeps_write (id : InstanceNo) (field : String) (value : Value) :
    discipline.Keeps [.object id, value] (fun _ => [])
      (Action.update fun store => store.write classes id field value) := by
  have agree := agree_write respected id id field value value
  exact @keeps_of_agree discipline Unit [.object id, value] _ _ agree

theorem keeps_allocate (cls : Class) (domain : Domain) :
    discipline.Keeps [] (fun id => [.object id]) (Action.allocate cls domain) := by
  have agree := agree_allocate respected cls domain
  exact @keeps_of_agree discipline InstanceNo [] _ _ agree

theorem keeps_allocateNamed (cls : String) (domain : Domain) :
    discipline.Keeps [] (fun id => [.object id]) (Action.allocateNamed classes cls domain) := by
  have agree := agree_allocateNamed respected cls domain
  exact @keeps_of_agree discipline InstanceNo [] _ _ agree

end Stores

end Discipline

section Calls
variable {discipline : Discipline} {hierarchy : Hierarchy}
  (respected : discipline.Respected hierarchy.classes)
include respected

namespace Dispatcher

open Discipline

theorem keeps_classOf (options : Options) (target : InstanceNo) :
    discipline.Keeps [.object target] (fun _ => []) (classOf ⟨hierarchy, options⟩ target) := by
  have agree := (within options respected).agree_classOf target target
  exact @keeps_of_agree discipline ClassId [.object target] _ _ agree

theorem keeps_exactReference (options : Options) (target : InstanceNo) :
    discipline.Keeps [.object target] (fun reference => [.object reference.target])
      (exactReference ⟨hierarchy, options⟩ target) := by
  apply (keeps_classOf respected options target).bind
  intro exact
  exact keeps_pure _ (List.Subset.refl _)

theorem keeps_reference (options : Options) (target : InstanceNo) (staticType : String) :
    discipline.Keeps [.object target] (fun reference => [.object reference.target])
      (reference ⟨hierarchy, options⟩ target staticType) := by
  have nothing {α : Type} {outcome : Outcome α} (unnumbered : Unnumbered outcome) :
      discipline.Keeps [.object target] (fun _ => []) (Action.lift outcome) :=
    keeps_lift unnumbered fun _ _ => List.nil_subset _
  apply (nothing (unnumbered_idOf hierarchy.classes staticType)).bind
  intro staticId
  apply (keeps_classOf respected options target).bind
  intro exact
  apply (nothing (faultless_isSubclassOf hierarchy.classes exact staticId).unnumbered).bind
  intro below
  split
  · exact keeps_pure _ (List.Subset.refl _)
  · apply (nothing (unnumbered_classAt hierarchy.classes exact)).bind
    intro exactClass
    apply (nothing (unnumbered_classAt hierarchy.classes staticId)).bind
    intro staticClass
    exact keeps_raise nofun

variable {decls : List ClassDecl} (flat : hierarchy.Flat decls) (plain : hierarchy.Plain)
  (options : Options)
include flat plain

/-- Receiver and arguments have to be held, and what is returned is. -/
theorem keeps_call (reference : Reference) (signature : Signature) (args : List Value) :
    discipline.Keeps (.object reference.target :: args) (fun value => [value])
      (invoke ⟨hierarchy, options⟩ reference signature args) := by
  have permits := unnumbered_permits hierarchy reference.staticType signature
  have agree := agree_invoke ((within options respected).respected flat plain)
    reference reference signature args args rfl fun _ _ => ends_same permits _
  rw [List.zip_eq_zipWith, List.zipWith_self] at agree
  exact @keeps_of_agree discipline Value (.object reference.target :: args) _ _ agree

theorem keeps_send (target : InstanceNo) (method : String) (args : List Value) :
    discipline.Keeps (.object target :: args) (fun value => [value])
      (send ⟨hierarchy, options⟩ target method args) := by
  have exact := (keeps_exactReference respected options target).weaken
    (List.cons_subset_cons (Value.object target) (List.nil_subset args))
  apply exact.bind
  intro reference
  apply (keeps_call respected flat plain options reference ⟨method, args.length⟩ args).weaken
  exact List.cons_subset_cons _ (List.subset_cons_self _ _)

/-- Started with receiver and arguments held, a call keeps the discipline, takes no
number away and returns a held one. -/
theorem keeps_invoke (reference : Reference) (signature : Signature) (args : List Value)
    (store : Store) (valid : discipline.Valid store)
    (held : ∀ id, .object id ∈ Value.object reference.target :: args → discipline.Held store id) :
    let effect := Dispatcher.invoke ⟨hierarchy, options⟩ reference signature args store
    discipline.Valid effect.store ∧
      (∀ id, discipline.Held store id → discipline.Held effect.store id) ∧
      ∀ id, effect.result = .ok (.object id) → discipline.Held effect.store id := by
  intro effect
  have kept := keeps_call respected flat plain options reference signature args store valid held
  refine ⟨kept.valid, kept.grows, ?_⟩
  intro id returned
  exact kept.gives _ returned id List.mem_cons_self

end Dispatcher

end Calls

end Lineage
