import Lineage.Proofs.Call.Commutation
import Lineage.Proofs.Call.Footprint

/-!
# Making a call again

What a call writes to instances that were there before are fields that some body sets.  So
over a hierarchy whose bodies set nothing every instance stays as it is, whatever is
called, and the same call finds the same instances again, however many calls have been
made since: it ends alike, but for the numbers of the instances that it makes.  That its
receiver has been given out has to be known for this, just as for its arguments: a number
that stands for nothing at first may be given out in between
(`missing_receiver_appears`).
-/

set_option autoImplicit false

namespace Lineage

namespace Call

/-- The store that is left when the calls have been made, one after another. -/
def runAll (calls : List Call) (store : Store) : Store :=
  calls.foldl (fun reached call => (call.run reached).store) store

/-- All objects that the call and the instances name have been given out. -/
structure Given (call : Call) (store : Store) : Prop where
  roots : ∀ id, .object id ∈ call.roots → id < store.next
  slots : ∀ owner inst id, store.find? owner = some inst → .object id ∈ inst.slots →
    id < store.next

theorem Given.of_reached {call : Call} {store : Store} (given : call.Given store)
    (id : InstanceNo) (reached : Reachable store call.roots id) : id < store.next := by
  cases reached with
  | root isRoot => exact given.roots id isRoot
  | slot _ live held => exact given.slots _ _ id live held

section Upheld
variable {hierarchy : Hierarchy} {R : Store → Store → Prop} (upholds : hierarchy.Upholds R)
  (isSealed : hierarchy.Sealed) (plain : hierarchy.Plain)
include upholds isSealed plain

theorem upheld_run (call : Call) (shared : call.dispatcher.hierarchy = hierarchy) (store : Store) :
    R store (call.run store).store := by
  obtain ⟨⟨_, options⟩, reference, signature, args⟩ := call
  subst shared
  obtain ⟨decls, flat⟩ := isSealed.exists_flat
  exact upholds.moves_invoke options flat plain reference signature args store

theorem upheld_runAll (calls : List Call)
    (shared : ∀ call ∈ calls, call.dispatcher.hierarchy = hierarchy) (store : Store) :
    R store (runAll calls store) := by
  induction calls generalizing store with
  | nil => exact upholds.refl store
  | cons call rest ih =>
      rw [List.forall_mem_cons] at shared
      have first := upheld_run upholds isSealed plain call shared.1 store
      exact upholds.trans first (ih shared.2 _)

end Upheld

/-- A call that finds everything it reaches as it was ends alike, but for the numbers of the
instances that it makes. -/
theorem repeats {call : Call} (ordinary : call.Ordinary) {store later : Store}
    (given : call.Given store) (grown : store.next ≤ later.next)
    (same : ∀ id, id < store.next → later.find? id = store.find? id) :
    ∃ count, (call.run store).store.next = store.next + count ∧
      (call.run later).store.next = later.next + count ∧
      let q := extend id store.next later.next count
      (call.run later).result = Outcome.rename q (call.run store).result ∧
      (call.run later).events = (call.run store).events.map (Event.rename q) ∧
      ∀ made, store.next ≤ made → made < store.next + count →
        (call.run later).store.find? (q made) =
          ((call.run store).store.find? made).map (Instance.rename q) := by
  have matched : Mirrored id store later call.roots :=
    mirrored_id (fun id reached => same id (given.of_reached id reached)) given.of_reached
      fun id reached => Nat.lt_of_lt_of_le (given.of_reached id reached) grown
  obtain ⟨stores, _, events, ends⟩ := reached_run ordinary matched
  obtain ⟨count, counted, otherCounted⟩ := stores.counted
  have follows := Renaming.extend_of_same matched counted
  refine ⟨count, counted, otherCounted, Renaming.eq_rename_of_ends follows ends,
    eq_map_of_forall₂ events fun _ _ alike => Event.Related.eq_rename follows alike, ?_⟩
  intro made isNew within
  obtain ⟨offset, rfl⟩ := Nat.exists_eq_add_of_le isNew
  have twin : Renaming.Same id store later call.roots (call.run store).store
      (store.next + offset) (later.next + offset) :=
    .inr ⟨offset, rfl, rfl, by rwa [counted]⟩
  rw [follows _ _ twin]
  exact Renaming.find?_of_same stores follows twin

end Call

/-- Of an instance that is there before a call, the call changes at most slots, and only
those that the exact class resolves for fields which some body sets.  If bodies set
nothing, every instance that was there is unchanged, and the same call ends alike when it
is made again after any number of calls on the hierarchy, but for the numbers of the
instances that it makes.  If bodies make no instances either, it is the same altogether. -/
theorem Dispatcher.invoke_footprint {hierarchy : Hierarchy} (isSealed : hierarchy.Sealed)
    (plain : hierarchy.Plain) (options : Options) (reference : Reference)
    (signature : Signature) (args : List Value) (store : Store) :
    let call : Call := ⟨⟨hierarchy, options⟩, reference, signature, args⟩
    let first := call.run store
    (∀ id inst, store.find? id = some inst → ∃ now, first.store.find? id = some now ∧
      now.cls = inst.cls ∧ now.domain = inst.domain ∧ now.slots.length = inst.slots.length ∧
      ∀ slot, now.slots[slot]? ≠ inst.slots[slot]? → ∃ cls field,
        hierarchy.classes.find? inst.cls = some cls ∧ hierarchy.Contains (.set field) ∧
          cls.slotOf? field = some slot) ∧
    ((∀ field, ¬ hierarchy.Contains (.set field)) →
      (∀ id inst, store.find? id = some inst → first.store.find? id = some inst) ∧
      ∀ calls : List Call, (∀ other ∈ calls, other.dispatcher.hierarchy = hierarchy) →
        let later := Call.runAll calls first.store
        let again := call.run later
        (call.Given store → ∃ count,
          first.store.next = store.next + count ∧ again.store.next = later.next + count ∧
          let q := extend id store.next later.next count
          again.result = Outcome.rename q first.result ∧
          again.events = first.events.map (Event.rename q) ∧
          ∀ made, store.next ≤ made → made < store.next + count →
            again.store.find? (q made) =
              (first.store.find? made).map (Instance.rename q)) ∧
        ((∀ cls mark, ¬ hierarchy.Contains (.new cls mark)) → later = store ∧ again = first)) := by
  intro call first
  have ordinary : call.Ordinary := ⟨isSealed, plain⟩
  have touches : store.Touches hierarchy.classes hierarchy.Sets first.store :=
    Call.upheld_run hierarchy.upholds_touches isSealed plain call rfl store
  refine ⟨?_, ?_⟩
  · intro id inst live
    obtain ⟨now, nowLive, shape⟩ := touches.lasts.kept id inst live not_false
    exact ⟨now, nowLive, shape.cls, shape.domain, shape.length,
      touches.targeted id inst now live nowLive⟩
  · intro noSet
    refine ⟨?_, ?_⟩
    · intro id inst live
      rw [touches.find?_eq noSet (Store.bounds_of_find? live).2, live]
    · intro calls shared later again
      refine ⟨?_, ?_⟩
      · intro given
        have touchesLater : store.Touches hierarchy.classes hierarchy.Sets later :=
          touches.trans (Call.upheld_runAll hierarchy.upholds_touches isSealed plain calls shared _)
        exact Call.repeats ordinary given touchesLater.lasts.grown
          fun id isOld => touchesLater.find?_eq noSet isOld
      · intro noNew
        have still := Hierarchy.upholds_eq noSet noNew
        have sameFirst : first.store = store :=
          Call.upheld_run still isSealed plain call rfl store
        have sameLater : later = first.store :=
          Call.upheld_runAll still isSealed plain calls shared first.store
        have isStore : later = store := sameLater.trans sameFirst
        exact ⟨isStore, congrArg call.run isStore⟩

/-! ## A seed and a stone -/

def seedDecl : ClassDecl :=
  { name := "Seed", methods := [⟨"spawn", 0, .expr (.new "Seed" none)⟩] }

def seedHierarchy : Hierarchy :=
  match Hierarchy.build 1 [seedDecl] with
  | .ok hierarchy => hierarchy
  | .error _ => ⟨.empty 1, #[]⟩

def seedStore : Store := ⟨#[some ⟨⟨1, 0⟩, .managed, []⟩]⟩

def spawn (target : InstanceNo) : Call :=
  ⟨⟨seedHierarchy, {}⟩, ⟨target, ⟨1, 0⟩⟩, ⟨"spawn", 0⟩, []⟩

theorem spawn_ordinary (target : InstanceNo) : (spawn target).Ordinary where
  isSealed := ⟨1, [seedDecl], rfl⟩
  plain := show seedHierarchy.Plain by decide

theorem seedHierarchy_sets_nothing (field : String) : ¬ seedHierarchy.Contains (.set field) := by
  have onlyNew : ∀ cls ∈ seedHierarchy.classes.classes.toList, ∀ method ∈ cls.methods,
      ∀ node ∈ method.body.nodes, node = .new "Seed" none := by decide
  rintro ⟨cls, listed, method, declared, occurs⟩
  cases onlyNew cls listed method declared _ occurs

theorem seedStore_slots (owner : InstanceNo) (inst : Instance) (id : InstanceNo)
    (live : seedStore.find? owner = some inst) (held : .object id ∈ inst.slots) :
    id < seedStore.next := by
  obtain ⟨positive, given⟩ := Store.bounds_of_find? live
  obtain rfl : owner = 1 := Nat.le_antisymm (Nat.le_of_lt_succ given) positive
  cases live
  cases held

def stoneDecl : ClassDecl :=
  { name := "Stone", fields := [⟨"weight", .int 3⟩]
    methods := [⟨"weigh", 0, .expr (.get .this "weight")⟩] }

def stoneHierarchy : Hierarchy :=
  match Hierarchy.build 1 [stoneDecl] with
  | .ok hierarchy => hierarchy
  | .error _ => ⟨.empty 1, #[]⟩

/-- A seed spawns again after its offspring has spawned, and a stone is weighed twice. -/
theorem spawn_footprint :
    let later := Call.runAll [spawn 1, spawn 2] ((spawn 1).run seedStore).store
    let weigh : Call := ⟨⟨stoneHierarchy, {}⟩, ⟨1, ⟨1, 0⟩⟩, ⟨"weigh", 0⟩, []⟩
    let stones : Store := ⟨#[some ⟨⟨1, 0⟩, .managed, [.int 3]⟩]⟩
    (spawn 1).Ordinary ∧ (∀ field, ¬ seedHierarchy.Contains (.set field)) ∧
      (spawn 1).Given seedStore ∧
      (∃ count, ((spawn 1).run later).result =
        Outcome.rename (extend id 2 later.next count) ((spawn 1).run seedStore).result) ∧
      weigh.Ordinary ∧ (∀ field, ¬ stoneHierarchy.Contains (.set field)) ∧
      (∀ cls mark, ¬ stoneHierarchy.Contains (.new cls mark)) ∧
      weigh.run (weigh.run stones).store = weigh.run stones := by
  intro later weigh stones
  have ordinary : (spawn 1).Ordinary := spawn_ordinary 1
  have given : (spawn 1).Given seedStore := by
    refine ⟨?_, seedStore_slots⟩
    intro id isRoot
    obtain rfl : id = 1 := by simpa [Call.roots, spawn] using isRoot
    decide
  obtain ⟨_, repeats⟩ := Dispatcher.invoke_footprint ordinary.isSealed ordinary.plain {}
    ⟨1, ⟨1, 0⟩⟩ ⟨"spawn", 0⟩ [] seedStore
  obtain ⟨_, afterCalls⟩ := repeats seedHierarchy_sets_nothing
  have sharing : ∀ other ∈ [spawn 1, spawn 2], other.dispatcher.hierarchy = seedHierarchy := by
    simp [spawn]
  obtain ⟨count, _, _, alike, _⟩ := (afterCalls [spawn 1, spawn 2] sharing).1 given
  have isSealed : stoneHierarchy.Sealed := ⟨1, [stoneDecl], rfl⟩
  have plain : stoneHierarchy.Plain := by decide
  have onlyGet : ∀ cls ∈ stoneHierarchy.classes.classes.toList, ∀ method ∈ cls.methods,
      ∀ node ∈ method.body.nodes, node = .get "weight" := by decide
  have noSet : ∀ field, ¬ stoneHierarchy.Contains (.set field) := by
    rintro field ⟨cls, listed, method, declared, occurs⟩
    cases onlyGet cls listed method declared _ occurs
  have noNew : ∀ cls mark, ¬ stoneHierarchy.Contains (.new cls mark) := by
    rintro name mark ⟨cls, listed, method, declared, occurs⟩
    cases onlyGet cls listed method declared _ occurs
  obtain ⟨_, weighed⟩ := Dispatcher.invoke_footprint isSealed plain {} ⟨1, ⟨1, 0⟩⟩
    ⟨"weigh", 0⟩ [] stones
  obtain ⟨_, same⟩ := ((weighed noSet).2 [] (List.forall_mem_nil _)).2 noNew
  exact ⟨ordinary, seedHierarchy_sets_nothing, given, ⟨count, alike⟩, ⟨isSealed, plain⟩, noSet,
    noNew, same⟩

/-- A call on an instance that is not there yet fails at first and succeeds when another
call has made the instance. -/
theorem missing_receiver_appears :
    let first := (spawn 2).run seedStore
    let later := Call.runAll [spawn 1] first.store
    let again := (spawn 2).run later
    (spawn 2).Ordinary ∧ (∀ field, ¬ seedHierarchy.Contains (.set field)) ∧
      (∀ id, .object id ∈ (spawn 2).args → id < seedStore.next) ∧
      (∀ owner inst id, seedStore.find? owner = some inst → .object id ∈ inst.slots →
        id < seedStore.next) ∧
      first.result = refuse (.unknownInstance 2) ∧ again.result = .ok (.object 3) ∧
      ∀ q, again.result ≠ Outcome.rename q first.result := by
  intro first later again
  have failed : first.result = refuse (.unknownInstance 2) := by decide
  have succeeded : again.result = .ok (.object 3) := by decide
  refine ⟨spawn_ordinary 2, seedHierarchy_sets_nothing, nofun, seedStore_slots, failed, succeeded,
    ?_⟩
  intro q alike
  rw [failed, succeeded] at alike
  cases alike

end Lineage
