import Lineage.Proofs.Call.Arity
import Lineage.Proofs.Call.Failures

/-!
# Where methods start

A method starts where the host calls it, where a running method calls it and where a
running method goes to the parent.  Each time either a check fails, and then nothing is
done, or everything is known that the method needs (`Starts`): the receiver is there, its
exact class and the class that declares the method are of the hierarchy.  Which of the two
it is depends on the hierarchy and the store alone, not on the options and not on how
methods are run (`Entry`).  A check that fails, here or in any other request of a method,
fails with what is the case on that store (`Refuses`).
-/

set_option autoImplicit false

namespace Lineage

namespace Hierarchy

/-- What is known of a method that starts on a receiver. -/
structure Starts (hierarchy : Hierarchy) (store : Store) (receiver : InstanceNo)
    (exact owner : Class) (method : Method) : Prop where
  live : ∃ inst, store.find? receiver = some inst ∧ inst.cls = exact.id
  exactFound : hierarchy.classes.find? exact.id = some exact
  ownerFound : hierarchy.classes.find? owner.id = some owner
  owned : method.owner = owner.id
  has : hierarchy.Has method

/-- The failures with which a request is refused on a store, each with what is the case on
that store. -/
inductive Refuses (hierarchy : Hierarchy) (store : Store) : Failure → Prop where
  | ofClasses {failure : Failure} (ofClasses : failure.OfClasses) : Refuses hierarchy store failure
  | unknownInstance {id : InstanceNo} (dead : store.find? id = none) :
      Refuses hierarchy store (.fault (.unknownInstance id))
  | unknownField {id : InstanceNo} {inst : Instance} {exact : Class} {field : String}
      (live : store.find? id = some inst)
      (found : hierarchy.classes.find? inst.cls = some exact)
      (unplaced : inst.position exact field = refuse (.unknownField exact.name field)) :
      Refuses hierarchy store (.fault (.unknownField exact.name field))

/-- The outcome is an answer, or a refusal on this store. -/
abbrev Explains {α : Type} (hierarchy : Hierarchy) (store : Store) (outcome : Outcome α) : Prop :=
  Spares (fun failure => ¬ hierarchy.Refuses store failure) outcome

/-- Whoever goes about starting a method is refused with the store as it was, or the
method starts. -/
def Entry (hierarchy : Hierarchy) (store : Store) (receiver : InstanceNo) (args : List Value)
    (begin : Options → Enter → Action Value) : Prop :=
  (∃ cause, ∀ options enter, begin options enter store = ⟨refuse cause, store, []⟩) ∨
    ∃ exact owner method, hierarchy.Starts store receiver exact owner method ∧
      ∀ options enter, begin options enter store = enter receiver exact.id method args store

variable {hierarchy : Hierarchy} {decls : List ClassDecl}

/-- What holds of every refusal with itself, and of two ways of running the methods that
can start, holds of two ways of going about it. -/
theorem Entry.rel {store : Store} {receiver : InstanceNo} {args : List Value}
    {begin : Options → Enter → Action Value} (entry : hierarchy.Entry store receiver args begin)
    (Rel : Effect Value → Effect Value → Prop)
    (refused : ∀ cause, Rel ⟨refuse cause, store, []⟩ ⟨refuse cause, store, []⟩)
    (enter other : Enter)
    (enters : ∀ exact owner method, hierarchy.Starts store receiver exact owner method →
      Rel (enter receiver exact.id method args store) (other receiver exact.id method args store))
    (options more : Options) : Rel (begin options enter store) (begin more other store) := by
  obtain ⟨cause, isRefused⟩ | ⟨exact, owner, method, starts, started⟩ := entry
  · rw [isRefused, isRefused]
    exact refused cause
  · rw [started, started]
    exact enters exact owner method starts

theorem Entry.holds {store : Store} {receiver : InstanceNo} {args : List Value}
    {begin : Options → Enter → Action Value} (entry : hierarchy.Entry store receiver args begin)
    (P : Effect Value → Prop) (refused : ∀ cause, P ⟨refuse cause, store, []⟩) {enter : Enter}
    (enters : ∀ exact owner method, hierarchy.Starts store receiver exact owner method →
      P (enter receiver exact.id method args store))
    (options : Options) : P (begin options enter store) :=
  entry.rel (fun effect _ => P effect) refused enter enter enters options options

/-! ## Why requests are refused -/

section Refusals
variable {store : Store} {id : InstanceNo}

theorem explains_of_classed {α : Type} {outcome : Outcome α} (classed : Classed outcome) :
    hierarchy.Explains store outcome :=
  classed.of_only fun _ ofClasses unexplained => unexplained (.ofClasses ofClasses)

theorem explains_get (hierarchy : Hierarchy) (store : Store) (id : InstanceNo) :
    hierarchy.Explains store (store.get id) := by
  apply spares_get
  intro unexplained
  by_contra dead
  rw [not_exists, ← Option.eq_none_iff_forall_ne_some] at dead
  exact unexplained (.unknownInstance dead)

variable {inst : Instance} {exact : Class} (live : store.find? id = some inst)
  (found : hierarchy.classes.find? inst.cls = some exact) (field : String)
include live found

theorem explains_position : hierarchy.Explains store (inst.position exact field) := by
  obtain ⟨slot, placed⟩ | unplaced | foreign := inst.position_cases exact field
  · rw [placed]
    exact spares_ok slot
  · rw [unplaced]
    exact spares_refuse (not_not_intro (.unknownField live found unplaced))
  · rw [foreign]
    exact explains_of_classed (classed_refuse (.unknownClass _))

theorem explains_instance_read : hierarchy.Explains store (inst.read exact field) := by
  apply (explains_position live found field).bind
  intro slot placed
  have inside := ((inst.position_eq_ok_iff exact field slot).mp placed).2.2
  rw [List.getElem?_eq_getElem inside]
  exact spares_ok _

end Refusals

section Accesses
variable (hierarchy : Hierarchy) (store : Store) (id : InstanceNo) (field : String)

theorem explains_read : hierarchy.Explains store (store.read hierarchy.classes id field) := by
  apply (explains_get hierarchy store id).bind
  intro inst got
  apply (explains_of_classed (classed_get hierarchy.classes inst.cls)).bind
  intro exact known
  exact explains_instance_read ((store.get_eq_ok_iff id inst).mp got)
    (ClassTable.find?_of_get known) field

theorem explains_write (value : Value) :
    hierarchy.Explains store (store.write hierarchy.classes id field value) := by
  apply (explains_get hierarchy store id).bind
  intro inst got
  apply (explains_of_classed (classed_get hierarchy.classes inst.cls)).bind
  intro exact known
  have placed := explains_position ((store.get_eq_ok_iff id inst).mp got)
    (ClassTable.find?_of_get known) field
  apply (placed.bind fun slot _ => spares_ok _).bind
  intro changed _
  exact spares_ok _

end Accesses

variable (flat : hierarchy.Flat decls)
include flat

/-! ## Which requests start a method -/

/-- Resolution ends with a method or with a fault. -/
theorem Flat.resolve_cases (id : ClassId) (signature : Signature) :
    (∃ cause, (Failure.fault cause).OfClasses ∧
      hierarchy.resolve id signature = refuse cause) ∨
      ∃ method, hierarchy.resolve id signature = .ok method :=
  (flat.classed_resolve id signature).cases

/-- So does the look-up of what a class of the hierarchy inherits. -/
theorem Flat.inheritedMethod_cases {owner : ClassId} {declaring : Class}
    (found : hierarchy.classes.find? owner = some declaring) (signature : Signature) :
    (∃ cause, (Failure.fault cause).OfClasses ∧
      hierarchy.inheritedMethod owner signature = refuse cause) ∨
      ∃ method, hierarchy.inheritedMethod owner signature = .ok method :=
  (flat.classed_inheritedMethod found signature).cases

/-- A method that was found has its declaring class in the hierarchy. -/
theorem Flat.exists_owner {id : ClassId} {signature : Signature} {method : Method}
    (run : hierarchy.resolve id signature = .ok method) :
    ∃ owner, hierarchy.classes.find? owner.id = some owner ∧ method.owner = owner.id ∧
      method ∈ owner.methods := by
  obtain ⟨_, _, owner, _, _, _, ownerFound, declared, _⟩ := flat.resolve_eq_ok run
  exact ⟨owner, ownerFound, flat.holds.owner_of_mem ownerFound declared, declared⟩

theorem Flat.starts_of_resolve {store : Store} {receiver : InstanceNo} {inst : Instance}
    {exact : Class} (live : store.find? receiver = some inst) (isExact : inst.cls = exact.id)
    (found : hierarchy.classes.find? exact.id = some exact) {id : ClassId}
    {signature : Signature} {method : Method}
    (run : hierarchy.resolve id signature = .ok method) :
    ∃ owner, hierarchy.Starts store receiver exact owner method := by
  obtain ⟨owner, ownerFound, owned, _⟩ := flat.exists_owner run
  exact ⟨owner, ⟨inst, live, isExact⟩, found, ownerFound, owned, flat.has_of_resolve run⟩

/-- The exact class of a receiver is not known, or all of this is. -/
theorem Flat.classOf_cases (receiver : InstanceNo) (store : Store) :
    (∃ cause, hierarchy.Refuses store (.fault cause) ∧
      ∀ options, Dispatcher.classOf ⟨hierarchy, options⟩ receiver store =
        ⟨refuse cause, store, []⟩) ∨
    ∃ inst exact, store.find? receiver = some inst ∧ inst.cls = exact.id ∧
      hierarchy.classes.find? exact.id = some exact ∧
      ∀ options, Dispatcher.classOf ⟨hierarchy, options⟩ receiver store =
        ⟨.ok exact.id, store, []⟩ := by
  cases live : store.find? receiver with
  | none => exact .inl ⟨_, .unknownInstance live, fun options => Dispatcher.classOf_of_dead live⟩
  | some inst =>
      cases found : hierarchy.classes.find? inst.cls with
      | none =>
          exact .inl ⟨_, .ofClasses (.unknownClass _), fun options =>
            Dispatcher.classOf_of_foreign live found⟩
      | some exact =>
          have ownId := flat.holds.id_of_find? found
          refine .inr ⟨inst, exact, rfl, ownId.symm, ownId ▸ found, fun options => ?_⟩
          exact Dispatcher.classOf_of_live live found

/-- A call within a call is refused, or the exact class of the receiver resolves what
starts. -/
theorem Flat.dispatch_cases (receiver : InstanceNo) (signature : Signature) (args : List Value)
    (store : Store) :
    (∃ cause, hierarchy.Refuses store (.fault cause) ∧
      ∀ options enter, Dispatcher.dispatch ⟨hierarchy, options⟩ enter receiver signature args
        store = ⟨refuse cause, store, []⟩) ∨
    ∃ exact owner method, hierarchy.Starts store receiver exact owner method ∧
      hierarchy.resolve exact.id signature = .ok method ∧
      ∀ options enter, Dispatcher.dispatch ⟨hierarchy, options⟩ enter receiver signature args
        store = enter receiver exact.id method args store := by
  unfold Dispatcher.dispatch
  obtain ⟨cause, refuses, unknown⟩ | ⟨inst, exact, live, isExact, found, known⟩ :=
    flat.classOf_cases receiver store
  · left
    exact ⟨cause, refuses, fun options enter => Action.run_bind_of_error (unknown options) _⟩
  · obtain ⟨cause, ofClasses, unresolved⟩ | ⟨method, resolved⟩ :=
      flat.resolve_cases exact.id signature
    · left
      refine ⟨cause, .ofClasses ofClasses, fun options enter => ?_⟩
      dsimp only
      rw [Action.run_bind_of_ok (known options), unresolved]
      rfl
    · right
      obtain ⟨owner, starts⟩ := flat.starts_of_resolve live isExact found resolved
      refine ⟨exact, owner, method, starts, resolved, fun options enter => ?_⟩
      dsimp only
      rw [Action.run_bind_of_ok (known options), resolved]
      rfl

theorem Flat.entry_dispatch (receiver : InstanceNo) (signature : Signature) (args : List Value)
    (store : Store) :
    hierarchy.Entry store receiver args fun options enter =>
      Dispatcher.dispatch ⟨hierarchy, options⟩ enter receiver signature args := by
  obtain ⟨cause, _, refused⟩ | ⟨exact, owner, method, starts, _, started⟩ :=
    flat.dispatch_cases receiver signature args store
  · exact .inl ⟨cause, refused⟩
  · exact .inr ⟨exact, owner, method, starts, started⟩

/-- A running method whose declaring class is of the hierarchy is refused as it goes to the
parent, or that class inherits what starts. -/
theorem Flat.super_cases {running : Method} {declaring : Class}
    (found : hierarchy.classes.find? running.owner = some declaring) (receiver : InstanceNo)
    (depth : Nat) (name : String) (args : List Value) (store : Store) :
    (∃ cause, hierarchy.Refuses store (.fault cause) ∧ ∀ options enter,
      Frame.invokeSuper ⟨⟨hierarchy, options⟩, enter, receiver, running, depth⟩ name args store =
        ⟨refuse cause, store, []⟩) ∨
    ∃ exact owner method, hierarchy.Starts store receiver exact owner method ∧
      hierarchy.inheritedMethod running.owner ⟨name, args.length⟩ = .ok method ∧
      ∀ options enter,
        Frame.invokeSuper ⟨⟨hierarchy, options⟩, enter, receiver, running, depth⟩ name args
          store = enter receiver exact.id method args store := by
  simp only [Frame.invokeSuper_eq]
  obtain ⟨cause, ofClasses, nothing⟩ | ⟨method, inherited⟩ :=
    flat.inheritedMethod_cases found ⟨name, args.length⟩
  · left
    refine ⟨cause, .ofClasses ofClasses, fun options enter => ?_⟩
    rw [nothing]
    rfl
  · obtain ⟨cause, refuses, unknown⟩ | ⟨inst, exact, live, isExact, exactFound, known⟩ :=
      flat.classOf_cases receiver store
    · left
      refine ⟨cause, refuses, fun options enter => ?_⟩
      rw [inherited, Action.lift_ok_bind, Action.run_bind_of_error (unknown options)]
      rfl
    · right
      obtain ⟨parent, resolved⟩ := resolve_of_inheritedMethod inherited
      obtain ⟨owner, starts⟩ := flat.starts_of_resolve live isExact exactFound resolved
      refine ⟨exact, owner, method, starts, inherited, fun options enter => ?_⟩
      rw [inherited, Action.lift_ok_bind, Action.run_bind_of_ok (known options)]
      rfl

/-- A running method whose declaring class is of the hierarchy may go to the parent. -/
theorem Flat.entry_super {running : Method} {declaring : Class}
    (found : hierarchy.classes.find? running.owner = some declaring) (receiver : InstanceNo)
    (depth : Nat) (name : String) (args : List Value) (store : Store) :
    hierarchy.Entry store receiver args fun options enter =>
      Frame.invokeSuper ⟨⟨hierarchy, options⟩, enter, receiver, running, depth⟩ name args := by
  obtain ⟨cause, _, refused⟩ | ⟨exact, owner, method, starts, _, started⟩ :=
    flat.super_cases found receiver depth name args store
  · exact .inl ⟨cause, refused⟩
  · exact .inr ⟨exact, owner, method, starts, started⟩

theorem Flat.entry_invokeBy (reference : Reference) (signature : Signature) (args : List Value)
    (store : Store) :
    hierarchy.Entry store reference.target args fun options enter =>
      Dispatcher.invokeBy ⟨hierarchy, options⟩ enter reference signature args := by
  unfold Dispatcher.invokeBy
  obtain ⟨cause, _, unresolved⟩ | ⟨method, resolved⟩ :=
    flat.resolve_cases reference.staticType signature
  · left
    refine ⟨cause, fun options enter => ?_⟩
    dsimp only
    rw [permits_eq_map, unresolved]
    rfl
  · simp only [permits_eq_map, resolved]
    exact flat.entry_dispatch reference.target signature args store

end Hierarchy

namespace Dispatcher

theorem invoke_eq_invokeBy_runHost (dispatcher : Dispatcher) (reference : Reference)
    (signature : Signature) (args : List Value) :
    dispatcher.invoke reference signature args =
      dispatcher.invokeBy dispatcher.runHost reference signature args := by
  rw [invoke_eq]
  rfl

/-- A method that starts is reported, and then its body runs. -/
theorem run_of_starts {dispatcher : Dispatcher} {store : Store} {receiver : InstanceNo}
    {exact owner : Class} {method : Method}
    (starts : dispatcher.hierarchy.Starts store receiver exact owner method) (remaining : Nat)
    (args : List Value) :
    dispatcher.run (remaining + 1) receiver exact.id method args =
      (Action.emit (.dispatched dispatcher.dispatchLevel receiver exact.name method.signature
          owner.name (dispatcher.options.maxCallDepth - (remaining + 1))) >>= fun _ =>
        (dispatcher.frameAt remaining receiver method).runBody owner.name args) := by
  rw [run, starts.owned, ClassTable.classAt_of_find? starts.exactFound,
    ClassTable.classAt_of_find? starts.ownerFound]
  rfl

end Dispatcher

end Lineage
