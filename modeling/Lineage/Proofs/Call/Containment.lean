import Lineage.Proofs.Call.Confinement
import Lineage.Proofs.Call.Provenance

/-!
# Domains are contained

Where a `new` node names no domain, the new instance joins that of the receiver for which
the node is evaluated.  This receiver was reachable when the call began, or it was allocated
by the call before, so by induction on the states of the call no domain comes into it from
outside (`invoke_contains_domains`).
-/

set_option autoImplicit false

namespace Lineage

namespace Machine

/-- In the call a method evaluates a `new` node with this mark, on this store and after
these events, and the instance is allocated there. -/
def Allocates (dispatcher : Dispatcher) (reference : Reference) (signature : Signature)
    (args : List Value) (store : Store) (running : Activity) (mark : Option Domain)
    (moment : Store) (earlier : List Event) (id : InstanceNo) (domain : Domain) : Prop :=
  ∃ cls name tasks,
    Reaches dispatcher reference signature args store
      (.working running (.eval (.new cls mark)) tasks moment earlier) ∧
    .allocated id name domain ∈ (dispatcher.allocateFor running.receiver cls mark moment).events

/-- The instance was reachable when the call began and of this domain, or the events say that
it was allocated in it. -/
def Inherits (store : Store) (roots : List Value) (earlier : List Event) (id : InstanceNo)
    (domain : Domain) : Prop :=
  (Reachable store roots id ∧ ∃ old, store.find? id = some old ∧ old.domain = domain) ∨
    ∃ name, .allocated id name domain ∈ earlier

section Receivers
variable {hierarchy : Hierarchy} {decls : List ClassDecl} {store moment : Store}
  {roots : List Value} {born : InstanceNo → Domain → Prop} {running : Activity}
  {control : Control} {tasks : List Task} {earlier : List Event}

/-- The receiver of a running method, as far as it lives. -/
theorem Sound.inherits (sound : Sound (Confinement.discipline store roots) hierarchy store born
      (.working running control tasks moment earlier))
    (holds : hierarchy.classes.Holds decls) {inst : Instance}
    (live : moment.find? running.receiver = some inst) :
    Inherits store roots earlier running.receiver inst.domain := by
  cases sound with
  | working traced frame here left =>
      obtain ⟨old, wasLive, same⟩ | ⟨_, cls, _, reported⟩ := traced.course.origin holds live
      · have held : Confinement.Held store roots moment running.receiver :=
          frame running.receiver List.mem_cons_self
        rcases held with reached | ⟨since, _⟩
        · exact .inl ⟨reached, old, wasLive, same.domain.symm⟩
        · exact absurd since (Nat.not_le_of_lt (Store.bounds_of_find? wasLive).2)
      · exact .inr ⟨cls.name, reported⟩

end Receivers

/-! ## The states of one call -/

section Calls
variable {hierarchy : Hierarchy} {decls : List ClassDecl} (flat : hierarchy.Flat decls)
  (options : Options) (reference : Reference) (signature : Signature) (args : List Value)
  (store : Store)
include flat

/-- Confinement holds of every state of a call, whatever is to be shown of allocations. -/
theorem sound_confined {born : InstanceNo → Domain → Prop}
    (births : ∀ running cls mark tasks moment earlier,
      Reaches ⟨hierarchy, options⟩ reference signature args store
        (.working running (.eval (.new cls mark)) tasks moment earlier) →
      Sound (Confinement.discipline store (.object reference.target :: args)) hierarchy store born
        (.working running (.eval (.new cls mark)) tasks moment earlier) → ∀ id name domain,
        .allocated id name domain ∈
          (Dispatcher.allocateFor ⟨hierarchy, options⟩ running.receiver cls mark moment).events →
            born id domain)
    {state : State} (reaches : Reaches ⟨hierarchy, options⟩ reference signature args store state) :
    Sound (Confinement.discipline store (.object reference.target :: args)) hierarchy store born
      state :=
  sound_reached flat (Confinement.respected hierarchy.classes) options Confinement.valid_start
    (fun _ isRoot => .inl (.root isRoot)) births reaches

/-- Every allocation so far belongs to a state that the machine came to. -/
theorem sound_allocates {state : State}
    (reaches : Reaches ⟨hierarchy, options⟩ reference signature args store state) :
    Sound (Confinement.discipline store (.object reference.target :: args)) hierarchy store
      (fun id domain => ∃ running mark moment earlier, Allocates ⟨hierarchy, options⟩ reference
        signature args store running mark moment earlier id domain) state := by
  refine sound_confined flat options reference signature args store ?_ reaches
  intro running cls mark tasks moment earlier comes _ id name domain isThere
  exact ⟨running, mark, moment, earlier, cls, name, tasks, comes, isThere⟩

/-- What is allocated where a `new` node is evaluated. -/
theorem Allocates.domain {running : Activity} {mark : Option Domain} {moment : Store}
    {earlier : List Event} {id : InstanceNo} {domain : Domain}
    (allocates : Allocates ⟨hierarchy, options⟩ reference signature args store running mark moment
      earlier id domain) :
    id = moment.next ∧ (mark = some domain ∨ mark = none ∧
      ∃ inst, moment.find? running.receiver = some inst ∧ inst.domain = domain ∧
        Inherits store (.object reference.target :: args) earlier running.receiver domain) := by
  obtain ⟨cls, name, tasks, comes, isThere⟩ := allocates
  have sound := sound_allocates flat options reference signature args store comes
  obtain ⟨isNext, isMarked | ⟨unmarked, inst, live, isDomain⟩⟩ :=
    Dispatcher.allocated_of_allocateFor isThere
  · exact ⟨isNext, .inl isMarked⟩
  · refine ⟨isNext, .inr ⟨unmarked, inst, live, isDomain, ?_⟩⟩
    rw [← isDomain]
    exact sound.inherits flat.holds live

/-- If no node names a domain and what is reachable is of one domain, every allocation so
far is of this domain. -/
theorem sound_contained {domain : Domain}
    (unmarked : ∀ cls mark, ¬ hierarchy.Contains (.new cls (some mark)))
    (same : ∀ id inst, Reachable store (.object reference.target :: args) id →
      store.find? id = some inst → inst.domain = domain) {state : State}
    (reaches : Reaches ⟨hierarchy, options⟩ reference signature args store state) :
    Sound (Confinement.discipline store (.object reference.target :: args)) hierarchy store
      (fun _ other => other = domain) state := by
  refine sound_confined flat options reference signature args store ?_ reaches
  intro running cls mark tasks moment earlier _ sound id name other isThere
  have receiver : ∀ inst, moment.find? running.receiver = some inst →
      Inherits store (.object reference.target :: args) earlier running.receiver inst.domain :=
    fun _ live => sound.inherits flat.holds live
  cases sound with
  | working traced frame here left =>
      obtain ⟨_, rfl | ⟨rfl, inst, live, rfl⟩⟩ := Dispatcher.allocated_of_allocateFor isThere
      · exact absurd (here.present _ (List.mem_singleton_self _)) (unmarked cls other)
      · obtain ⟨reached, old, wasLive, isDomain⟩ | ⟨earlierName, isEarlier⟩ := receiver inst live
        · exact isDomain.symm.trans (same _ old reached wasLive)
        · exact traced.born _ earlierName _ isEarlier

end Calls

end Machine

/-- Every instance that a call allocates, whether the call succeeds or fails, is allocated
where a `new` node is evaluated for some receiver.  It is of the domain that the node names
or, if this names none, of that of the receiver, which was reachable when the call began or
was allocated in the call before.  So if no node names a domain and what is reachable is of
one domain, everything allocated is of this domain. -/
theorem Dispatcher.invoke_contains_domains {hierarchy : Hierarchy} (isSealed : hierarchy.Sealed)
    (plain : hierarchy.Plain) (options : Options) (reference : Reference)
    (signature : Signature) (args : List Value) (store : Store) :
    let dispatcher : Dispatcher := ⟨hierarchy, options⟩
    let run := dispatcher.invoke reference signature args store
    let roots := Value.object reference.target :: args
    let Allocates := Machine.Allocates dispatcher reference signature args store
    Machine.Reaches dispatcher reference signature args store (.halted run) ∧
    (∀ id inst, run.store.find? id = some inst → store.next ≤ id →
      ∃ name, .allocated id name inst.domain ∈ run.events) ∧
    (∀ id name domain, .allocated id name domain ∈ run.events →
      (store.next ≤ id ∧ ∃ inst, run.store.find? id = some inst ∧ inst.domain = domain) ∧
      ∃ running mark moment earlier, Allocates running mark moment earlier id domain) ∧
    (∀ running mark moment earlier id domain, Allocates running mark moment earlier id domain →
      id = moment.next ∧
      (mark = some domain ∨ mark = none ∧
        ∃ inst, moment.find? running.receiver = some inst ∧ inst.domain = domain ∧
          Machine.Inherits store roots earlier running.receiver domain)) ∧
    ∀ domain, (∀ cls mark, ¬ hierarchy.Contains (.new cls (some mark))) →
      (∀ id inst, Reachable store roots id → store.find? id = some inst →
        inst.domain = domain) →
      (∀ id name other, .allocated id name other ∈ run.events → other = domain) ∧
      ∀ id inst, run.store.find? id = some inst → store.next ≤ id → inst.domain = domain := by
  intro dispatcher run roots Allocates
  obtain ⟨decls, flat⟩ := isSealed.exists_flat
  have halts : Machine.Reaches dispatcher reference signature args store (.halted run) :=
    ⟨_, Machine.halts_with_invoke flat plain reference signature args store⟩
  have course : store.Course hierarchy.classes run.events run.store :=
    @through_invoke dispatcher decls flat reference signature args store
  have reported : ∀ id inst, run.store.find? id = some inst → store.next ≤ id →
      ∃ name, .allocated id name inst.domain ∈ run.events := by
    intro id inst live isNew
    obtain ⟨old, wasLive, _⟩ | ⟨_, cls, _, isReported⟩ := course.origin flat.holds live
    · exact absurd isNew (Nat.not_le_of_lt (Store.bounds_of_find? wasLive).2)
    · exact ⟨cls.name, isReported⟩
  refine ⟨halts, reported, ?_, ?_, ?_⟩
  · intro id name domain isReported
    refine ⟨course.live_of_allocated isReported, ?_⟩
    cases Machine.sound_allocates flat options reference signature args store halts with
    | halted traced => exact traced.born id name domain isReported
  · intro running mark moment earlier id domain allocates
    exact Machine.Allocates.domain flat options reference signature args store allocates
  · intro domain unmarked same
    have all : ∀ id name other, .allocated id name other ∈ run.events → other = domain := by
      have sound :=
        Machine.sound_contained flat options reference signature args store unmarked same halts
      cases sound with
      | halted traced => exact traced.born
    refine ⟨all, ?_⟩
    intro id inst live isNew
    obtain ⟨name, isReported⟩ := reported id inst live isNew
    exact all id name inst.domain isReported

/-- A node outside the managed domain grows a leaf in its own, also where growing fails. -/
theorem grow_contained :
    let store : Store := ⟨#[some ⟨⟨1, 0⟩, .unmanaged, [.nil, .str "node"]⟩]⟩
    let grow := Dispatcher.invoke ⟨sampleHierarchy, {}⟩ ⟨1, ⟨1, 0⟩⟩ ⟨"grow", 0⟩ [] store
    sampleHierarchy.Sealed ∧ sampleHierarchy.Plain ∧
      grow.result = refuse (.noSuchMethod "Leaf" ⟨"cut", 0⟩) ∧
      .allocated 2 "Leaf" .unmanaged ∈ grow.events ∧
      (∀ id name domain, .allocated id name domain ∈ grow.events → domain = .unmanaged) ∧
      ∃ running mark moment earlier,
        Machine.Allocates ⟨sampleHierarchy, {}⟩ ⟨1, ⟨1, 0⟩⟩ ⟨"grow", 0⟩ [] store running mark
          moment earlier 2 .unmanaged := by
  intro store grow
  have only : ∀ cls ∈ sampleHierarchy.classes.classes.toList, ∀ method ∈ cls.methods,
      ∀ node ∈ method.body.nodes, node ∈ [Expr.Node.new "Leaf" none, .set "next", .get "next",
        .invoke "link", .super "link", .set "label", .invoke "cut"] := by decide
  have unmarked : ∀ cls mark, ¬ sampleHierarchy.Contains (.new cls (some mark)) := by
    rintro cls mark ⟨owner, listed, method, declared, occurs⟩
    simpa using only owner listed method declared _ occurs
  have unmanaged : ∀ id inst, Reachable store [.object 1] id → store.find? id = some inst →
      inst.domain = .unmanaged := by
    rintro (_ | _ | id) inst _ live <;> cases live
    rfl
  have allocated : .allocated 2 "Leaf" .unmanaged ∈ grow.events := by decide +kernel
  obtain ⟨_, _, born, _, contained⟩ := Dispatcher.invoke_contains_domains sampleHierarchy_sealed
    sampleHierarchy_plain {} ⟨1, ⟨1, 0⟩⟩ ⟨"grow", 0⟩ [] store
  exact ⟨sampleHierarchy_sealed, sampleHierarchy_plain, by decide +kernel, allocated,
    (contained .unmanaged unmarked unmanaged).1, (born 2 "Leaf" .unmanaged allocated).2⟩

end Lineage
