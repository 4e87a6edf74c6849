import Lineage.Proofs.Call.Pairing
import Lineage.Proofs.Call.Rewriting
import Lineage.Proofs.Hierarchy.Marks

/-!
# Domains do not matter

The domain of an instance is asked for in one place: a `new` node without a mark takes it
from the receiver, which lives while its method runs, so this never fails.  Hence a call
does the same in the hierarchy without any marks, on stores that differ in their domains
(`lockstep_unmarked`), and so in any two hierarchies that differ in their marks only
(`invoke_sameButDomains`).
-/

set_option autoImplicit false

namespace Lineage

/-- The event with the domain of an allocation left out. -/
def Event.undomained : Event → Event
  | .allocated id cls _ => .allocated id cls .managed
  | event => event

/-- The stores have given out the same numbers and agree on which of them are live and
on the classes and slots of the instances. -/
structure Store.SameButDomains (left right : Store) : Prop where
  next : left.next = right.next
  alike : ∀ id, (left.find? id).map (fun inst => (inst.cls, inst.slots)) =
    (right.find? id).map fun inst => (inst.cls, inst.slots)

theorem Store.SameButDomains.refl (store : Store) : store.SameButDomains store :=
  ⟨rfl, fun _ => rfl⟩

/-- The definition with the marks of all `new` nodes left out. -/
def ClassDecl.unmarked : ClassDecl → ClassDecl := mapMarks fun _ => none

/-- The stores may differ in all domains. -/
def Pairing.domains : Pairing where
  Domains _ _ := True
  Foreign inst twin := twin.slots = inst.slots
  event := Event.undomained
  allocated _ _ _ _ _ := rfl

theorem Pairing.stores_domains_iff {classes : ClassTable} {left right : Store} :
    Pairing.domains.Stores classes left right ↔ left.SameButDomains right := by
  constructor
  · intro stores
    refine ⟨stores.next, ?_⟩
    intro id
    have alike := stores.alike id
    generalize left.find? id = content at alike
    generalize right.find? id = twinContent at alike
    cases alike with
    | none => rfl
    | some alike =>
        cases alike with
        | own found domains => rfl
        | foreign notFound sameClass related =>
            have sameSlots := related
            simp only [domains] at sameSlots
            simp only [Option.map_some, sameClass, sameSlots]
  · intro same
    refine ⟨same.next, ?_⟩
    intro id
    have alike := same.alike id
    cases live : left.find? id with
    | none =>
        rw [live, Option.map_none] at alike
        rw [Option.map_eq_none_iff.mp alike.symm]
        exact .none
    | some inst =>
        rw [live, Option.map_some] at alike
        obtain ⟨⟨cls, domain, slots⟩, twinLive, sameParts⟩ := Option.map_eq_some_iff.mp alike.symm
        cases sameParts
        rw [twinLive]
        cases found : classes.find? inst.cls with
        | some cls => exact .some (.own found trivial)
        | none => exact .some (.foreign found rfl rfl)

/-! ## Dispatchers without marks -/

theorem Hierarchy.inheritedMethod_mapMarks (mark : Option Domain → Option Domain)
    (hierarchy : Hierarchy) (owner : ClassId) (signature : Signature) :
    (hierarchy.mapMarks mark).inheritedMethod owner signature =
      (hierarchy.inheritedMethod owner signature).map (Method.mapMarks mark) :=
  hierarchy.inheritedMethod_rewrite (.marks mark) owner signature

theorem Body.isExpr_mapMarks (mark : Option Domain → Option Domain) (body : Body) :
    (body.mapMarks mark).isExpr = body.isExpr := by
  cases body <;> rfl

namespace Dispatcher

variable (mark : Option Domain → Option Domain) (dispatcher : Dispatcher)

def mapMarks : Dispatcher := { dispatcher with hierarchy := dispatcher.hierarchy.mapMarks mark }

theorem classOf_mapMarks (target : InstanceNo) :
    (dispatcher.mapMarks mark).classOf target = dispatcher.classOf target :=
  dispatcher.classOf_rewrite (.marks mark) target

theorem read_mapMarks (target : InstanceNo) (field : String) :
    (dispatcher.mapMarks mark).read target field = dispatcher.read target field :=
  dispatcher.read_rewrite (.marks mark) target field

theorem write_mapMarks (target : InstanceNo) (field : String) (value : Value) :
    (dispatcher.mapMarks mark).write target field value =
      dispatcher.write target field value :=
  dispatcher.write_rewrite (.marks mark) target field value

theorem announced_mapMarks (receiver : InstanceNo) (id : ClassId) (method : Method)
    (depth : Nat) :
    (dispatcher.mapMarks mark).announced receiver id (method.mapMarks mark) depth =
      dispatcher.announced receiver id method depth :=
  dispatcher.announced_rewrite (.marks mark) receiver id method depth

theorem allocateFor_mapMarks (receiver : InstanceNo) (cls : String) (domain : Option Domain) :
    (dispatcher.mapMarks mark).allocateFor receiver cls domain =
      dispatcher.allocateFor receiver cls domain :=
  dispatcher.allocateFor_rewrite (.marks mark) receiver cls domain

/-- For a receiver that lives, an allocation without a mark is one with its domain. -/
theorem allocateFor_of_find? {store : Store} {receiver : InstanceNo} {inst : Instance}
    (live : store.find? receiver = some inst) (cls : String) (domain : Option Domain) :
    dispatcher.allocateFor receiver cls domain store =
      dispatcher.allocate cls (domain.getD inst.domain) store := by
  cases domain with
  | some domain => rfl
  | none =>
      have asked : Action.query (fun store => store.domainOf receiver) store =
          ⟨.ok inst.domain, store, []⟩ := by
        simp only [Action.run_query, Store.domainOf, (store.get_eq_ok_iff receiver inst).mpr live]
        rfl
      exact Action.run_bind_of_ok asked _

variable {dispatcher} {decls : List ClassDecl}

theorem agree_allocateFor (flat : dispatcher.hierarchy.Flat decls) (receiver : InstanceNo)
    (cls : String) (domain : Option Domain) :
    Pairing.domains.Agree dispatcher.hierarchy.classes [receiver]
      (dispatcher.allocateFor receiver cls domain) (dispatcher.allocateFor receiver cls none) := by
  intro left right stores isLocal
  obtain ⟨inst, own, live, found⟩ := isLocal receiver (List.mem_singleton_self receiver)
  rcases stores.cases receiver with ⟨dead, _⟩ | ⟨_, _, twinDomain, _, _, twinLive, _⟩ |
    ⟨_, _, otherLive, notFound, _, _⟩
  · rw [live] at dead
    cases dead
  · rw [dispatcher.allocateFor_of_find? live, dispatcher.allocateFor_of_find? twinLive]
    exact Pairing.agree_allocateNamed flat.holds cls trivial left right stores isLocal
  · rw [live] at otherLive
    cases otherLive
    rw [found] at notFound
    cases notFound

/-- A call does the same through the dispatcher whose hierarchy has no marks. -/
theorem lockstep_unmarked (flat : dispatcher.hierarchy.Flat decls)
    (plain : dispatcher.hierarchy.Plain) :
    Lockstep (fun _ => none) (Pairing.domains.Agree dispatcher.hierarchy.classes) dispatcher
      (dispatcher.mapMarks fun _ => none) where
  limit := rfl
  resolve := dispatcher.hierarchy.resolve_mapMarks _
  inherited := dispatcher.hierarchy.inheritedMethod_mapMarks _
  toSequential := Pairing.sequential
  announced receiver cls method depth := by
    rw [announced_mapMarks]
    exact Pairing.sequential.announced dispatcher (fun _ _ _ _ _ _ => Pairing.agree_emit _)
      receiver cls method depth
  classOf id _ _ rest := by
    rw [classOf_mapMarks]
    exact Pairing.agree_classOf id rest
  read id field := by
    rw [read_mapMarks]
    exact Pairing.agree_read id field
  write id field value := by
    rw [write_mapMarks]
    exact Pairing.agree_write id field value
  allocate receiver cls domain := by
    rw [allocateFor_mapMarks]
    exact agree_allocateFor flat receiver cls domain
  asks has := by
    obtain ⟨id, resolved⟩ := has
    exact .inl (flat.isExpr_of_resolve plain resolved)

end Dispatcher

/-! ## Calls -/

/-- The same end, the same reports but for domains, and the same store but for domains. -/
structure Effect.SameButDomains {α : Type} (one other : Effect α) : Prop where
  result : one.result = other.result
  events : one.events.map Event.undomained = other.events.map Event.undomained
  store : one.store.SameButDomains other.store

theorem Effect.SameButDomains.of_common {α : Type} {one other common : Effect α}
    (same : one.SameButDomains common) (otherSame : other.SameButDomains common) :
    one.SameButDomains other where
  result := same.result.trans otherSame.result.symm
  events := same.events.trans otherSame.events.symm
  store := ⟨same.store.next.trans otherSame.store.next.symm,
    fun id => (same.store.alike id).trans (otherSame.store.alike id).symm⟩

theorem isExpr_of_unmarked {decls others : List ClassDecl}
    (sameButMarks : decls.map ClassDecl.unmarked = others.map ClassDecl.unmarked)
    (isExpr : ∀ decl ∈ decls, ∀ method ∈ decl.methods, method.body.isExpr = true) :
    ∀ decl ∈ others, ∀ method ∈ decl.methods, method.body.isExpr = true := by
  intro decl listed method declared
  have inBoth : decl.unmarked ∈ decls.map ClassDecl.unmarked := by
    rw [sameButMarks]
    exact List.mem_map_of_mem listed
  obtain ⟨twin, twinListed, sameDecl⟩ := List.mem_map.mp inBoth
  have inTwin : method.mapMarks (fun _ => none) ∈ twin.unmarked.methods := by
    rw [sameDecl]
    exact List.mem_map_of_mem declared
  obtain ⟨source, inSource, sameMethod⟩ := List.mem_map.mp inTwin
  have sameBody := congrArg (fun made => made.body.isExpr) sameMethod
  simp only [MethodDecl.mapMarks, Body.isExpr_mapMarks] at sameBody
  rw [← sameBody]
  exact isExpr twin twinListed source inSource

namespace Dispatcher

section Unmarked
variable {tag : Nat} {decls : List ClassDecl} {hierarchy : Hierarchy} {left right : Store}
  (isExpr : ∀ decl ∈ decls, ∀ method ∈ decl.methods, method.body.isExpr = true)
  (built : Hierarchy.build tag decls = .ok hierarchy)
include isExpr built

theorem invoke_unmarked (stores : left.SameButDomains right) (options : Options)
    (reference : Reference) (signature : Signature) (args : List Value) :
    Effect.SameButDomains (invoke ⟨hierarchy, options⟩ reference signature args left)
      (invoke ⟨hierarchy.mapMarks fun _ => none, options⟩ reference signature args right) := by
  have flat := Hierarchy.flat_of_build built
  have lockstep : Lockstep _ _ ⟨hierarchy, options⟩ _ :=
    lockstep_unmarked flat (flat.plain_of_decls isExpr)
  have reached := rel_invoke lockstep flat reference signature args left right
    (Pairing.stores_domains_iff.mpr stores) (List.forall_mem_nil _)
  exact ⟨reached.result, reached.events, Pairing.stores_domains_iff.mp reached.stores⟩

end Unmarked

/-- Domains never influence what a call does: neither those of the instances in the store
nor the marks in the definitions. -/
theorem invoke_sameButDomains {tag : Nat} {decls others : List ClassDecl}
    (isExpr : ∀ decl ∈ decls, ∀ method ∈ decl.methods, method.body.isExpr = true)
    (sameButMarks : decls.map ClassDecl.unmarked = others.map ClassDecl.unmarked)
    {hierarchy other : Hierarchy} (built : Hierarchy.build tag decls = .ok hierarchy)
    (otherBuilt : Hierarchy.build tag others = .ok other) {left right : Store}
    (stores : left.SameButDomains right) (options : Options) (reference : Reference)
    (signature : Signature) (args : List Value) :
    Effect.SameButDomains (invoke ⟨hierarchy, options⟩ reference signature args left)
      (invoke ⟨other, options⟩ reference signature args right) := by
  have sameHierarchy : hierarchy.mapMarks (fun _ => none) = other.mapMarks fun _ => none := by
    have unmarked : Hierarchy.build tag (decls.map ClassDecl.unmarked) =
        Hierarchy.build tag (others.map ClassDecl.unmarked) := by rw [sameButMarks]
    unfold ClassDecl.unmarked at unmarked
    rw [Hierarchy.build_mapMarks, Hierarchy.build_mapMarks, built, otherBuilt] at unmarked
    exact Except.ok.inj unmarked
  have one := invoke_unmarked isExpr built stores options reference signature args
  have another := invoke_unmarked (isExpr_of_unmarked sameButMarks isExpr) otherBuilt
    (.refl right) options reference signature args
  rw [sameHierarchy] at one
  exact one.of_common another

/-- The sample with every new leaf marked. -/
def markedDecls : List ClassDecl := sampleDecls.map (.mapMarks fun _ => some .unmanaged)

def markedHierarchy : Hierarchy := sampleHierarchy.mapMarks fun _ => some .unmanaged

/-- A leaf may be grown in the domain of the node or in another one: only the reports of
its allocation differ. -/
theorem grow_sameButDomains :
    let grow (hierarchy : Hierarchy) := invoke ⟨hierarchy, {}⟩ ⟨1, ⟨1, 0⟩⟩ ⟨"grow", 0⟩ []
    let left : Store := ⟨#[some ⟨⟨1, 0⟩, .managed, [.nil, .str "node"]⟩]⟩
    let right : Store := ⟨#[some ⟨⟨1, 0⟩, .unmanaged, [.nil, .str "node"]⟩]⟩
    (∀ decl ∈ sampleDecls, ∀ method ∈ decl.methods, method.body.isExpr = true) ∧
      sampleDecls.map ClassDecl.unmarked = markedDecls.map ClassDecl.unmarked ∧
      Hierarchy.build 1 sampleDecls = .ok sampleHierarchy ∧
      Hierarchy.build 1 markedDecls = .ok markedHierarchy ∧ left.SameButDomains right ∧
      (grow sampleHierarchy left).events ≠ (grow markedHierarchy right).events ∧
      Effect.SameButDomains (grow sampleHierarchy left) (grow markedHierarchy right) := by
  intro grow left right
  have isExpr : ∀ decl ∈ sampleDecls, ∀ method ∈ decl.methods, method.body.isExpr = true := by
    decide
  have sameButMarks : sampleDecls.map ClassDecl.unmarked = markedDecls.map ClassDecl.unmarked :=
    rfl
  have built : Hierarchy.build 1 sampleDecls = .ok sampleHierarchy := rfl
  have otherBuilt : Hierarchy.build 1 markedDecls = .ok markedHierarchy := by
    rw [markedDecls, Hierarchy.build_mapMarks, built]
    rfl
  have stores : left.SameButDomains right := by
    refine ⟨rfl, ?_⟩
    rintro (_ | _ | id) <;> rfl
  have differ : (grow sampleHierarchy left).events ≠ (grow markedHierarchy right).events := by
    decide +kernel
  exact ⟨isExpr, sameButMarks, built, otherBuilt, stores, differ, invoke_sameButDomains isExpr
    sameButMarks built otherBuilt stores {} ⟨1, ⟨1, 0⟩⟩ ⟨"grow", 0⟩ []⟩

end Dispatcher

end Lineage
