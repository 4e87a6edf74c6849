import Lineage.Proofs.Call.Pairing

/-!
# Hierarchies that share a store

One store may hold instances of several tables.  What the host does through a dispatcher
leaves the instances of other tables as they are, makes instances of its own table only
and learns nothing of the others but that they are there (`operations_isolated`).  The
first two hold of every course through the table; the last compares two runs on stores
that differ in what other tables have put there.
-/

set_option autoImplicit false

namespace Lineage

namespace Store

/-- The stores have given out the same numbers, to instances of the same classes, and
differ at most in the slots and domains of instances of other tables. -/
structure SameApart (classes : ClassTable) (left right : Store) : Prop where
  next : left.next = right.next
  cls : ∀ id, (left.find? id).map (·.cls) = (right.find? id).map (·.cls)
  own : ∀ id inst, left.find? id = some inst → classes.owns inst.cls = true →
    right.find? id = some inst

/-- The instances of other tables are as they were. -/
def Spares (classes : ClassTable) (before after : Store) : Prop :=
  ∀ id inst, before.find? id = some inst → classes.owns inst.cls = false →
    after.find? id = some inst

theorem steady_spares (classes : ClassTable) : Steady (Spares classes) classes where
  refl _ _ _ live _ := live
  trans before after id inst live isForeign :=
    after id inst (before id inst live isForeign) isForeign
  write run id inst live isForeign := by
    obtain ⟨target, view, slot, targetLive, known, _, rfl⟩ := write_eq_ok run
    obtain ⟨positive, given⟩ := bounds_of_find? targetLive
    rw [find?_put _ _ id _ positive given, if_neg]
    · exact live
    · rintro rfl
      rw [live] at targetLive
      cases targetLive
      rw [ClassTable.get, (classes.owns_eq_false_iff _).mp isForeign] at known
      cases known
  allocate store _ cls domain _ id inst live _ := by
    rw [find?_allocate, if_neg (Nat.ne_of_lt (bounds_of_find? live).2)]
    exact live

end Store

/-- The stores may differ in the slots and domains of instances of other tables. -/
def Pairing.apart : Pairing where
  Domains := Eq
  Foreign _ _ := True
  event := id
  allocated id cls domain twin same := by rw [same]

section Apart
variable {classes : ClassTable} {left right : Store}

theorem Pairing.stores_apart_iff :
    Pairing.apart.Stores classes left right ↔ left.SameApart classes right := by
  constructor
  · intro stores
    refine ⟨stores.next, ?_, ?_⟩
    · intro id
      rcases stores.cases id with ⟨dead, twinDead⟩ | ⟨inst, cls, domain, live, _, twinLive, _⟩ |
        ⟨inst, twin, live, _, twinLive, sameClass⟩
      · rw [dead, twinDead]
      · rw [live, twinLive]
        rfl
      · simp only [live, twinLive, Option.map_some, sameClass]
    · intro id inst live isOwn
      rcases stores.cases id with ⟨dead, _⟩ | ⟨own, cls, domain, ownLive, _, twinLive, same⟩ |
        ⟨other, twin, otherLive, notFound, _, _⟩
      · rw [live] at dead
        cases dead
      · rw [live] at ownLive
        cases ownLive
        rw [twinLive, ← same]
      · rw [live] at otherLive
        cases otherLive
        rw [ClassTable.owns, notFound] at isOwn
        cases isOwn
  · intro same
    refine ⟨same.next, ?_⟩
    intro id
    have sameClass := same.cls id
    cases live : left.find? id with
    | none =>
        cases twinLive : right.find? id with
        | none => exact .none
        | some twin =>
            rw [live, twinLive] at sameClass
            cases sameClass
    | some inst =>
        cases found : classes.find? inst.cls with
        | some cls =>
            rw [same.own id inst live (ClassTable.owns_of_find? found)]
            exact .some (.own found rfl)
        | none =>
            cases twinLive : right.find? id with
            | none =>
                rw [live, twinLive] at sameClass
                cases sameClass
            | some twin =>
                rw [live, twinLive] at sameClass
                exact .some (.foreign found (Option.some.inj sameClass).symm trivial)

end Apart

/-! ## Isolated actions -/

/-- The action makes and changes instances of the table only, and nothing that it does
depends on the slots or domains of others. -/
structure Action.Isolated (classes : ClassTable) {α : Type} (action : Action α) : Prop where
  spares : ∀ store : Store, store.Spares classes (action store).store
  creates : ∀ (store : Store) id inst, store.find? id = none →
    (action store).store.find? id = some inst → classes.owns inst.cls = true
  blind : ∀ left right : Store, left.SameApart classes right →
    (action left).result = (action right).result ∧
      (action left).events = (action right).events ∧
        (action left).store.SameApart classes (action right).store

theorem Action.isolated_of_through {classes : ClassTable} {decls : List ClassDecl}
    (holds : classes.Holds decls) {α : Type} {action : Action α} (through : action.Through classes)
    (agree : Pairing.apart.Agree classes [] action action) : action.Isolated classes where
  spares store := (Store.steady_spares classes).of_course (through store)
  creates store id inst absent live := by
    rcases (through store).origin holds live with ⟨old, atStart, _⟩ | ⟨_, cls, fits, _⟩
    · rw [absent] at atStart
      cases atStart
    · exact ClassTable.owns_of_find? fits.found
  blind left right same := by
    have reached := agree left right (Pairing.stores_apart_iff.mpr same) (by simp)
    refine ⟨reached.result, ?_, Pairing.stores_apart_iff.mp reached.stores⟩
    have events := reached.events
    rwa [Pairing.apart, List.map_id, List.map_id] at events

namespace Dispatcher

variable {dispatcher : Dispatcher} {decls : List ClassDecl}

theorem parametric_apart (flat : dispatcher.hierarchy.Flat decls) :
    Parametric (Pairing.apart.Agree dispatcher.hierarchy.classes) dispatcher where
  toSequential := Pairing.sequential
  report _ _ _ _ _ _ := Pairing.agree_emit _
  classOf := Pairing.agree_classOf
  domain id := by
    refine Pairing.agree_query ?_
    intro left right stores isLocal
    obtain ⟨inst, cls, live, found⟩ := isLocal id (List.mem_singleton_self id)
    have same := Pairing.stores_apart_iff.mp stores
    have twinLive := same.own id inst live (ClassTable.owns_of_find? found)
    simp only [Store.domainOf, Store.get, live, twinLive]
  read := Pairing.agree_read
  write := Pairing.agree_write
  allocate cls _ := Pairing.agree_allocateNamed flat.holds cls rfl

/-- Hierarchies that share a store are isolated from each other: whatever the host does
through a dispatcher, it neither changes the instances of other tables nor depends on
them, and it makes instances of the dispatcher's own table only. -/
theorem operations_isolated (dispatcher : Dispatcher) (isSealed : dispatcher.hierarchy.Sealed) :
    let classes := dispatcher.hierarchy.classes
    (∀ cls domain, (dispatcher.allocate cls domain).Isolated classes) ∧
    (∀ target field, (dispatcher.read target field).Isolated classes) ∧
    (∀ target field value, (dispatcher.write target field value).Isolated classes) ∧
    (∀ target staticType, (dispatcher.reference target staticType).Isolated classes) ∧
    (∀ target, (dispatcher.exactReference target).Isolated classes) ∧
    (∀ reference signature args, (dispatcher.invoke reference signature args).Isolated classes) ∧
    (∀ reference method args, (dispatcher.call reference method args).Isolated classes) ∧
    ∀ target method args, (dispatcher.send target method args).Isolated classes := by
  intro classes
  obtain ⟨accepted, flat⟩ := isSealed.exists_flat
  have through := dispatcher.parametric_through
  have apart := parametric_apart flat
  refine ⟨?_, ?_, ?_, ?_, ?_, ?_, ?_, ?_⟩
  · intro cls domain
    exact Action.isolated_of_through flat.holds (through.allocate cls domain)
      (apart.allocate cls domain)
  · intro target field
    exact Action.isolated_of_through flat.holds (through.read target field)
      (apart.read target field)
  · intro target field value
    exact Action.isolated_of_through flat.holds (through.write target field value)
      (apart.write target field value)
  · intro target staticType
    exact Action.isolated_of_through flat.holds (dispatcher.through_reference target staticType)
      (rel_reference apart target staticType)
  · intro target
    exact Action.isolated_of_through flat.holds (dispatcher.through_exactReference target)
      (rel_exactReference apart.lockstep target)
  · intro reference signature args
    exact Action.isolated_of_through flat.holds (through_invoke flat reference signature args)
      (rel_invoke apart.lockstep flat reference signature args)
  · intro reference method args
    exact Action.isolated_of_through flat.holds (through_invoke flat reference _ args)
      (rel_invoke apart.lockstep flat reference ⟨method, args.length⟩ args)
  · intro target method args
    exact Action.isolated_of_through flat.holds (through_send flat target method args)
      (rel_send apart.lockstep flat target method args)

/-- A node that refers to an instance of another table, of a class at the same place. -/
def crowdedStore (domain : Domain) (slots : List Value) : Store :=
  ⟨#[some ⟨⟨1, 0⟩, .managed, [.object 2, .str "node"]⟩, some ⟨⟨2, 0⟩, domain, slots⟩]⟩

/-- The node grows a leaf beside the other instance, whatever that is like. -/
theorem grow_isolated :
    let grow := Dispatcher.send ⟨sampleHierarchy, {}⟩ 1 "grow" []
    let left := crowdedStore .managed [.object 1]
    let right := crowdedStore .unmanaged []
    sampleHierarchy.Sealed ∧ left.SameApart sampleHierarchy.classes right ∧
      (grow left).store.find? 2 = some ⟨⟨2, 0⟩, .managed, [.object 1]⟩ ∧
      (grow left).events = (grow right).events := by
  intro grow left right
  have same : left.SameApart sampleHierarchy.classes right := by
    refine ⟨rfl, ?_, ?_⟩
    · rintro (_ | _ | _ | id) <;> rfl
    · rintro (_ | _ | _ | id) inst live isOwn
      · cases live
      · exact live
      · cases live
        cases isOwn
      · cases live
  obtain ⟨_, _, _, _, _, _, _, sends⟩ :=
    operations_isolated ⟨sampleHierarchy, {}⟩ sampleHierarchy_sealed
  have isolated := sends 1 "grow" []
  exact ⟨sampleHierarchy_sealed, same, isolated.spares left 2 _ rfl rfl,
    (isolated.blind left right same).2.1⟩

end Dispatcher

end Lineage
