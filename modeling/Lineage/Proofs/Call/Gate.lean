import Lineage.Proofs.Call.Steps

/-!
# The entry of a call

How a call of the host begins: it is refused if no class from the static type upwards
declares the signature (`invoke_of_lacks`), then if the instance is not there
(`invoke_of_dead`).  Otherwise the static type plays no part (`invoke_of_understands`):
the exact class decides, and what runs is the method of the nearest class that declares
one (`Flat.exists_provides`, `runHost_of_pos`).  Refusals leave the store as it was and
report nothing.
-/

set_option autoImplicit false

namespace Lineage

namespace Hierarchy

/-- Neither the class of the identity nor any class above it declares the signature. -/
structure Lacks (hierarchy : Hierarchy) (id : ClassId) (cls : Class) (signature : Signature) :
    Prop where
  found : hierarchy.classes.find? id = some cls
  undeclared : ∃ chain, hierarchy.classes.Chain cls chain ∧
    ∀ upper ∈ chain, upper.declares signature = false

/-- The class of the identity or some class above it declares the signature. -/
structure Understands (hierarchy : Hierarchy) (id : ClassId) (cls : Class)
    (signature : Signature) : Prop where
  found : hierarchy.classes.find? id = some cls
  declared : ∃ chain, hierarchy.classes.Chain cls chain ∧
    ∃ upper ∈ chain, upper.declares signature = true

/-- The method is the one that the nearest class from `cls` upwards declares for the
signature; that class declares no other for it. -/
structure Provides (hierarchy : Hierarchy) (cls : Class) (signature : Signature)
    (owner : Class) (method : Method) : Prop where
  nearest : ∃ before after, hierarchy.classes.Chain cls (before ++ owner :: after) ∧
    ∀ lower ∈ before, lower.declares signature = false
  only : owner.methods.filter (·.signature = signature) = [method]
  owned : method.owner = owner.id

section Provided
variable {hierarchy : Hierarchy} {cls owner : Class} {signature : Signature} {method : Method}
  (provides : hierarchy.Provides cls signature owner method)
include provides

theorem Provides.declared : method ∈ owner.methods ∧ method.signature = signature := by
  have only : method ∈ owner.methods.filter (·.signature = signature) := by
    rw [provides.only]
    exact List.mem_singleton_self _
  simpa using only

theorem Provides.declares : owner.declares signature = true := by
  obtain ⟨inMethods, same⟩ := provides.declared
  exact List.any_eq_true.mpr ⟨method, inMethods, decide_eq_true same⟩

/-- The class that provides a method is the first of the chain that declares it. -/
theorem Provides.find?_eq {chain : List Class} (chained : hierarchy.classes.Chain cls chain) :
    chain.find? (·.declares signature) = some owner := by
  obtain ⟨before, after, split, undeclared⟩ := provides.nearest
  rw [chained.unique split, List.find?_eq_some_iff_append]
  refine ⟨provides.declares, before, after, rfl, ?_⟩
  intro lower inBefore
  rw [undeclared lower inBefore]
  rfl

end Provided

variable {hierarchy : Hierarchy} {decls : List ClassDecl} (flat : hierarchy.Flat decls)
  {id : ClassId} {cls : Class} {signature : Signature}
include flat

theorem Flat.lacks_or_understands (found : hierarchy.classes.find? id = some cls)
    (signature : Signature) :
    hierarchy.Lacks id cls signature ∨ hierarchy.Understands id cls signature := by
  obtain ⟨chain, chained⟩ := flat.holds.exists_chain found
  by_cases declared : ∃ upper ∈ chain, upper.declares signature = true
  · exact .inr ⟨found, chain, chained, declared⟩
  · refine .inl ⟨found, chain, chained, ?_⟩
    intro upper inChain
    exact Bool.eq_false_iff.mpr fun declares => declared ⟨upper, inChain, declares⟩

omit flat in
/-- A class understands what a class above it understands. -/
theorem Understands.below {upper : Class} {upperId : ClassId}
    (understands : hierarchy.Understands upperId upper signature)
    (found : hierarchy.classes.find? id = some cls) {chain : List Class}
    (chained : hierarchy.classes.Chain cls chain) (above : upper ∈ chain) :
    hierarchy.Understands id cls signature := by
  obtain ⟨rest, restChained, owner, inRest, declares⟩ := understands.declared
  obtain ⟨before, after, split, upperChained⟩ := chained.exists_of_mem above
  have same : rest = upper :: after := restChained.unique upperChained
  refine ⟨found, chain, chained, owner, ?_, declares⟩
  rw [split, ← same]
  exact List.mem_append_right before inRest

theorem Flat.resolve_of_lacks (lacks : hierarchy.Lacks id cls signature) :
    hierarchy.resolve id signature = refuse (.noSuchMethod cls.name signature) := by
  obtain ⟨chain, chained, undeclared⟩ := lacks.undeclared
  rw [flat.resolve_eq lacks.found chained, (nearest_eq_none_iff chain signature).mpr undeclared]

theorem Flat.permits_of_lacks (lacks : hierarchy.Lacks id cls signature) :
    hierarchy.permits id signature = refuse (.noSuchMethod cls.name signature) := by
  rw [permits_eq_map, flat.resolve_of_lacks lacks]
  rfl

/-- Where a signature is understood, resolution succeeds. -/
theorem Flat.exists_provides (understands : hierarchy.Understands id cls signature) :
    ∃ owner method, hierarchy.Provides cls signature owner method ∧
      hierarchy.classes.find? owner.id = some owner ∧
      hierarchy.resolve id signature = .ok method := by
  obtain ⟨chain, chained, declared⟩ := understands.declared
  have ownFound : hierarchy.classes.find? cls.id = some cls := by
    rw [flat.holds.id_of_find? understands.found, understands.found]
  obtain ⟨owner, isFirst⟩ : ∃ owner, chain.find? (·.declares signature) = some owner :=
    Option.isSome_iff_exists.mp (List.find?_isSome.mpr declared)
  obtain ⟨declaredHere, before, after, split, undeclared⟩ :=
    List.find?_eq_some_iff_append.mp isFirst
  have undeclaredBefore : ∀ lower ∈ before, lower.declares signature = false := by
    intro lower inBefore
    simpa using undeclared lower inBefore
  have ownerFound := chained.find?_of_mem flat.holds ownFound (List.mem_of_find?_eq_some isFirst)
  obtain ⟨method, declares, owned, only⟩ :=
    flat.holds.method?_of_declares ownerFound declaredHere
  have isNearest : Lineage.nearest chain signature = some method := by
    rw [split, nearest_append undeclaredBefore, Lineage.nearest, List.findSome?_cons, declares]
  refine ⟨owner, method, ⟨⟨before, after, split ▸ chained, undeclaredBefore⟩, only, owned⟩,
    ownerFound, ?_⟩
  rw [flat.resolve_eq understands.found chained, isNearest]

/-- What is resolved is provided by the class in question. -/
theorem Flat.provides_of_resolve {method : Method}
    (run : hierarchy.resolve id signature = .ok method) :
    ∃ cls owner, hierarchy.classes.find? id = some cls ∧
      hierarchy.Provides cls signature owner method ∧
      hierarchy.classes.find? owner.id = some owner := by
  obtain ⟨cls, found⟩ := exists_find?_of_resolve run
  rcases flat.lacks_or_understands found signature with lacks | understands
  · rw [flat.resolve_of_lacks lacks] at run
    cases run
  · obtain ⟨owner, provided, provides, ownerFound, resolved⟩ := flat.exists_provides understands
    rw [run] at resolved
    cases resolved
    exact ⟨cls, owner, found, provides, ownerFound⟩

theorem Flat.permits_of_understands (understands : hierarchy.Understands id cls signature) :
    hierarchy.permits id signature = .ok () := by
  obtain ⟨owner, method, _, _, resolved⟩ := flat.exists_provides understands
  rw [permits_eq_map, resolved]
  rfl

end Hierarchy

namespace Dispatcher

variable {dispatcher : Dispatcher} {store : Store} {target : InstanceNo}

/-- What it takes for the exact class of an instance to be known. -/
theorem exists_of_classOf {decls : List ClassDecl} (flat : dispatcher.hierarchy.Flat decls)
    {id : ClassId} (run : (dispatcher.classOf target store).result = .ok id) :
    ∃ inst exact, store.find? target = some inst ∧ inst.cls = exact.id ∧ exact.id = id ∧
      dispatcher.hierarchy.classes.find? exact.id = some exact := by
  cases live : store.find? target with
  | none =>
      rw [classOf_of_dead live] at run
      cases run
  | some inst =>
      cases found : dispatcher.hierarchy.classes.find? inst.cls with
      | none =>
          rw [classOf_of_foreign live found] at run
          cases run
      | some exact =>
          rw [classOf_of_live live found] at run
          have ownId := flat.holds.id_of_find? found
          exact ⟨inst, exact, rfl, ownId.symm, Except.ok.inj run, ownId ▸ found⟩

theorem dispatch_of_dead (enter : Enter) (signature : Signature) (args : List Value)
    (dead : store.find? target = none) :
    dispatcher.dispatch enter target signature args store =
      ⟨refuse (.unknownInstance target), store, []⟩ := by
  unfold dispatch
  rw [Action.run_bind_of_error (classOf_of_dead dead)]
  rfl

theorem dispatch_of_live (enter : Enter) (signature : Signature) (args : List Value)
    {inst : Instance} (live : store.find? target = some inst) {cls : Class}
    (found : dispatcher.hierarchy.classes.find? inst.cls = some cls) :
    dispatcher.dispatch enter target signature args store =
      (Action.lift (dispatcher.hierarchy.resolve cls.id signature) >>= fun method =>
        enter target cls.id method args) store := by
  unfold dispatch
  rw [Action.run_bind_of_ok (classOf_of_live live found)]
  rfl

section Entry
variable {decls : List ClassDecl} (flat : dispatcher.hierarchy.Flat decls)
  {reference : Reference} {static : Class} {signature : Signature} (args : List Value)
include flat

theorem invoke_of_lacks
    (lacks : dispatcher.hierarchy.Lacks reference.staticType static signature) :
    dispatcher.invoke reference signature args store =
      ⟨refuse (.noSuchMethod static.name signature), store, []⟩ := by
  rw [invoke_eq, flat.permits_of_lacks lacks]
  rfl

variable (understands : dispatcher.hierarchy.Understands reference.staticType static signature)
include understands

/-- Behind the gate the static type plays no part any more. -/
theorem invoke_of_understands :
    dispatcher.invoke reference signature args =
      dispatcher.dispatch dispatcher.runHost reference.target signature args := by
  rw [invoke_eq, flat.permits_of_understands understands, Action.lift_ok_bind]

theorem invoke_of_dead (dead : store.find? reference.target = none) :
    dispatcher.invoke reference signature args store =
      ⟨refuse (.unknownInstance reference.target), store, []⟩ := by
  rw [invoke_of_understands flat args understands]
  exact dispatch_of_dead _ signature args dead

end Entry

/-- No method runs where no nesting is allowed. -/
theorem runHost_of_zero (limit : dispatcher.options.maxCallDepth = 0) (id : ClassId)
    (method : Method) (args : List Value) :
    dispatcher.runHost target id method args store =
      ⟨refuse (.callDepthExceeded 0), store, []⟩ := by
  unfold runHost
  rw [limit, run, limit]
  rfl

/-- The frame of a method that the host's call runs first. -/
def hostFrame (dispatcher : Dispatcher) (target : InstanceNo) (method : Method) : Frame where
  dispatcher := dispatcher
  enter := dispatcher.run (dispatcher.options.maxCallDepth - 1)
  receiver := target
  method := method
  depth := 0

/-- The report that a method was found for the host's call, and then the method. -/
def start (dispatcher : Dispatcher) (target : InstanceNo) (exact owner : Class) (method : Method)
    (args : List Value) : Action Value := do
  Action.emit (.dispatched dispatcher.dispatchLevel target exact.name method.signature owner.name 0)
  (dispatcher.hostFrame target method).runBody owner.name args

theorem runHost_of_pos (positive : 0 < dispatcher.options.maxCallDepth) {exact owner : Class}
    (found : dispatcher.hierarchy.classes.find? exact.id = some exact) {method : Method}
    (ownerFound : dispatcher.hierarchy.classes.find? owner.id = some owner)
    (owned : method.owner = owner.id) (args : List Value) :
    dispatcher.runHost target exact.id method args =
      dispatcher.start target exact owner method args := by
  obtain ⟨rest, limit⟩ := Nat.exists_eq_succ_of_ne_zero (Nat.ne_of_gt positive)
  unfold runHost start hostFrame
  rw [limit, run, owned, ClassTable.classAt_of_find? found, ClassTable.classAt_of_find? ownerFound,
    Action.lift_ok_bind, Action.lift_ok_bind, limit, Nat.sub_self, Nat.succ_sub_one]

/-- Past the gate and with the instance there, the method that the exact class
understands is what the call runs first. -/
theorem exists_invoke_of_live {decls : List ClassDecl} (flat : dispatcher.hierarchy.Flat decls)
    {reference : Reference} {static exact : Class} {signature : Signature} (args : List Value)
    (understands : dispatcher.hierarchy.Understands reference.staticType static signature)
    (exactUnderstands : dispatcher.hierarchy.Understands exact.id exact signature)
    {inst : Instance} (live : store.find? reference.target = some inst)
    (isExact : inst.cls = exact.id) :
    ∃ owner method, dispatcher.hierarchy.Provides exact signature owner method ∧
      dispatcher.hierarchy.resolve exact.id signature = .ok method ∧
      (dispatcher.options.maxCallDepth = 0 →
        dispatcher.invoke reference signature args store =
          ⟨refuse (.callDepthExceeded 0), store, []⟩) ∧
      (0 < dispatcher.options.maxCallDepth →
        dispatcher.invoke reference signature args store =
          dispatcher.start reference.target exact owner method args store) := by
  obtain ⟨owner, method, provides, ownerFound, resolved⟩ := flat.exists_provides exactUnderstands
  have started : dispatcher.invoke reference signature args store =
      dispatcher.runHost reference.target exact.id method args store := by
    rw [invoke_of_understands flat args understands,
      dispatch_of_live _ signature args live (isExact ▸ exactUnderstands.found), resolved]
    rfl
  refine ⟨owner, method, provides, resolved, ?_, ?_⟩
  · intro none
    rw [started, runHost_of_zero none]
  · intro positive
    rw [started, runHost_of_pos positive exactUnderstands.found ownerFound provides.owned]

end Dispatcher

end Lineage
