import Lineage.Proofs.Call.Evaluation

/-!
# Calls as relations between actions see them

A call is put together from steps on single instances by sequencing, and it starts
further methods through `enter` only.  So a relation between actions that holds of
every step and that sequencing keeps (`Sequential`) holds of whole calls, with bodies of
both kinds.  `Lockstep` is for two dispatchers, the second of which runs the bodies of the
first with their domain marks changed; `Parametric` is for one.  What is known of the
receivers of running methods may be used: the relation is told for which numbers
(`classOf` adds one).

`Frame.accord` says that the frames of a call are in accord, given that methods with as
many arguments as they declare are related, so the relation holds of their bodies
(`rel_runBody`); `rel_run` is the induction on the nesting of calls, and `rel_invoke` and
`rel_send` are the calls of the host.
-/

set_option autoImplicit false

namespace Lineage

namespace Action

variable {α β : Type}

@[simp] theorem lift_error_bind (failure : Failure) (next : α → Action β) :
    (lift (.error failure) >>= next) = lift (.error failure) := rfl

end Action

/-- The method is one that a class of the hierarchy understands. -/
def Hierarchy.Has (hierarchy : Hierarchy) (method : Method) : Prop :=
  ∃ id, hierarchy.resolve id method.signature = .ok method

theorem Method.map_mapMarks_id (outcome : Outcome Method) :
    outcome.map (mapMarks id) = outcome := by
  cases outcome with
  | error failure => rfl
  | ok method => exact congrArg Except.ok method.mapMarks_id

section Relations
variable (mark : Option Domain → Option Domain)
  (Rel : ∀ {α : Type}, List InstanceNo → Action α → Action α → Prop)

/-- Sequencing keeps the relation, and whatever depends on no store is related to itself. -/
structure Sequential : Prop where
  weaken : ∀ {α : Type} {given more : List InstanceNo} {one other : Action α}, given ⊆ more →
    Rel given one other → Rel more one other
  lift : ∀ {α : Type} (outcome : Outcome α), Rel [] (Action.lift outcome) (Action.lift outcome)
  bind : ∀ {α β : Type} {given : List InstanceNo} {one other : Action α}
    {next after : α → Action β}, Rel given one other →
      (∀ value, Rel given (next value) (after value)) → Rel given (one >>= next) (other >>= after)
  attempt : ∀ {α : Type} {given : List InstanceNo} {one other : Action α}, Rel given one other →
    Rel given (Action.attempt one) (Action.attempt other)

/-- The relation holds of what only a method that the host provides can ask. -/
structure Asks (first second : Dispatcher) : Prop where
  domain : ∀ id, Rel [id] (Action.query fun store => store.domainOf id)
    (Action.query fun store => store.domainOf id)
  allocate : ∀ receiver cls domain, Rel [receiver] (first.allocateFor receiver cls domain)
    (second.allocateFor receiver cls domain)

/-- A relation between actions that holds of every step of a call through the first
dispatcher with the like step through the second, and that sequencing keeps. -/
structure Lockstep (first second : Dispatcher) : Prop extends Sequential Rel where
  limit : second.options.maxCallDepth = first.options.maxCallDepth
  resolve : ∀ id signature, second.hierarchy.resolve id signature =
    (first.hierarchy.resolve id signature).map (Method.mapMarks mark)
  inherited : ∀ owner signature, second.hierarchy.inheritedMethod owner signature =
    (first.hierarchy.inheritedMethod owner signature).map (Method.mapMarks mark)
  announced : ∀ receiver cls method depth, Rel [] (first.announced receiver cls method depth)
    (second.announced receiver cls (method.mapMarks mark) depth)
  classOf : ∀ {α : Type} {given : List InstanceNo} (id : InstanceNo)
    {next after : ClassId → Action α},
    (∀ cls, Rel (id :: given) (next cls) (after cls)) →
      Rel given (first.classOf id >>= next) (second.classOf id >>= after)
  read : ∀ id field, Rel [] (first.read id field) (second.read id field)
  write : ∀ id field value, Rel [] (first.write id field value) (second.write id field value)
  allocate : ∀ receiver cls domain, Rel [receiver] (first.allocateFor receiver cls domain)
    (second.allocateFor receiver cls (mark domain))
  asks : ∀ {method}, first.hierarchy.Has method →
    method.body.isExpr = true ∨ Asks Rel first second

/-- A relation between actions that holds of every step of a call with itself and
that sequencing keeps. -/
structure Parametric (dispatcher : Dispatcher) : Prop extends Sequential Rel where
  report : ∀ level receiver cls method owner depth,
    Rel [] (Action.emit (.dispatched level receiver cls method owner depth))
      (Action.emit (.dispatched level receiver cls method owner depth))
  classOf : ∀ {α : Type} {given : List InstanceNo} (id : InstanceNo)
    {next after : ClassId → Action α},
    (∀ cls, Rel (id :: given) (next cls) (after cls)) →
      Rel given (dispatcher.classOf id >>= next) (dispatcher.classOf id >>= after)
  domain : ∀ id, Rel [id] (Action.query fun store => store.domainOf id)
    (Action.query fun store => store.domainOf id)
  read : ∀ id field, Rel [] (dispatcher.read id field) (dispatcher.read id field)
  write : ∀ id field value, Rel [] (dispatcher.write id field value)
    (dispatcher.write id field value)
  allocate : ∀ cls domain, Rel [] (dispatcher.allocate cls domain) (dispatcher.allocate cls domain)

/-- Two ways to run methods that are related where a method of the hierarchy is given as
many arguments as it declares. -/
def Enters (hierarchy : Hierarchy) (enter other : Enter) : Prop :=
  ∀ receiver cls method args, hierarchy.Has method → args.length = method.signature.arity →
    Rel [receiver] (enter receiver cls method args)
      (other receiver cls (method.mapMarks mark) args)

end Relations

variable {mark : Option Domain → Option Domain}
  {Rel : ∀ {α : Type}, List InstanceNo → Action α → Action α → Prop} {decls : List ClassDecl}

namespace Sequential

variable (sequential : Sequential Rel) {α β : Type}
include sequential

theorem always {given : List InstanceNo} {one other : Action α} (rel : Rel [] one other) :
    Rel given one other :=
  sequential.weaken (List.nil_subset _) rel

theorem pure {given : List InstanceNo} (value : α) :
    Rel given (Pure.pure value : Action α) (Pure.pure value) :=
  sequential.always (sequential.lift (.ok value))

/-- What comes after an outcome is needed for its own value only, and may be given the
image of that value on the other side. -/
theorem lift_map {given : List InstanceNo} (outcome : Outcome α) (image : α → α)
    {next after : α → Action β}
    (rest : ∀ value, outcome = .ok value → Rel given (next value) (after (image value))) :
    Rel given (Action.lift outcome >>= next) (Action.lift (outcome.map image) >>= after) := by
  cases outcome with
  | error failure => exact sequential.always (sequential.lift (.error failure))
  | ok value => exact rest value rfl

theorem announced (dispatcher : Dispatcher)
    (report : ∀ level receiver cls method owner depth,
      Rel [] (Action.emit (.dispatched level receiver cls method owner depth))
        (Action.emit (.dispatched level receiver cls method owner depth)))
    (receiver : InstanceNo) (cls : ClassId) (method : Method) (depth : Nat) :
    Rel [] (dispatcher.announced receiver cls method depth)
      (dispatcher.announced receiver cls method depth) := by
  refine sequential.bind (sequential.lift _) ?_
  intro exact
  refine sequential.bind (sequential.lift _) ?_
  intro owner
  refine sequential.bind (report _ _ _ _ _ _) ?_
  intro _
  exact sequential.pure _

end Sequential

namespace Parametric

variable {dispatcher : Dispatcher} (parametric : Parametric Rel dispatcher)
include parametric

theorem allocateFor (receiver : InstanceNo) (cls : String) (domain : Option Domain) :
    Rel [receiver] (dispatcher.allocateFor receiver cls domain)
      (dispatcher.allocateFor receiver cls domain) := by
  cases domain with
  | some domain => exact parametric.always (parametric.allocate cls domain)
  | none =>
      refine parametric.bind (parametric.domain receiver) ?_
      intro domain
      exact parametric.always (parametric.allocate cls domain)

theorem asks : Asks Rel dispatcher dispatcher := ⟨parametric.domain, parametric.allocateFor⟩

/-- A relation between the steps of one dispatcher is one between those of two. -/
theorem lockstep :
    Lockstep id Rel dispatcher dispatcher where
  limit := rfl
  resolve _ _ := (Method.map_mapMarks_id _).symm
  inherited _ _ := (Method.map_mapMarks_id _).symm
  toSequential := parametric.toSequential
  announced receiver cls method depth := by
    rw [Method.mapMarks_id]
    exact parametric.announced dispatcher parametric.report receiver cls method depth
  classOf := parametric.classOf
  read := parametric.read
  write := parametric.write
  allocate := parametric.allocateFor
  asks _ := .inr parametric.asks

end Parametric

/-! ## Bodies -/

theorem Hierarchy.Flat.signature_of_resolve {hierarchy : Hierarchy}
    (flat : hierarchy.Flat decls) {id : ClassId} {signature : Signature} {method : Method}
    (run : hierarchy.resolve id signature = .ok method) : method.signature = signature := by
  obtain ⟨_, _, _, _, _, _, _, _, sameSignature⟩ := flat.resolve_eq_ok run
  exact sameSignature

theorem Hierarchy.Flat.has_of_resolve {hierarchy : Hierarchy} (flat : hierarchy.Flat decls)
    {id : ClassId} {signature : Signature} {method : Method}
    (run : hierarchy.resolve id signature = .ok method) : hierarchy.Has method :=
  ⟨id, by rw [flat.signature_of_resolve run, run]⟩

section Bodies

theorem Dispatcher.rel_dispatch {first second : Dispatcher}
    (lockstep : Lockstep mark Rel first second) (flat : first.hierarchy.Flat decls)
    {enter other : Enter} (enters : Enters mark Rel first.hierarchy enter other)
    (receiver : InstanceNo) (signature : Signature) (args : List Value)
    (sameCount : args.length = signature.arity) :
    Rel [] (first.dispatch enter receiver signature args)
      (second.dispatch other receiver signature args) := by
  refine lockstep.classOf receiver ?_
  intro cls
  rw [lockstep.resolve]
  refine lockstep.lift_map _ _ ?_
  intro method resolved
  have declared : args.length = method.signature.arity := by
    rw [flat.signature_of_resolve resolved, sameCount]
  exact enters receiver cls method args (flat.has_of_resolve resolved) declared

namespace Frame

/-- The same frame with another way to run the methods that it starts. -/
def withEnter (frame : Frame) (other : Enter) : Frame := { frame with enter := other }

/-- The frame of the same call through another dispatcher. -/
def beside (frame : Frame) (mark : Option Domain → Option Domain) (dispatcher : Dispatcher)
    (enter : Enter) : Frame :=
  { frame with dispatcher := dispatcher, enter := enter, method := frame.method.mapMarks mark }

theorem beside_id (frame : Frame) (other : Enter) :
    frame.beside id frame.dispatcher other = frame.withEnter other := by
  rw [beside, Method.mapMarks_id, withEnter]

variable {frame : Frame} {second : Dispatcher} {other : Enter}
  (lockstep : Lockstep mark Rel frame.dispatcher second)

include lockstep in
theorem rel_allocate (cls : String) (domain : Option Domain) :
    Rel [frame.receiver] (frame.allocate cls domain)
      ((frame.beside mark second other).allocate cls (mark domain)) := by
  rw [allocate_eq, allocate_eq]
  exact lockstep.allocate frame.receiver cls domain

variable (flat : frame.dispatcher.hierarchy.Flat decls)
  (enters : Enters mark Rel frame.dispatcher.hierarchy frame.enter other)
include lockstep flat enters

set_option linter.unusedSectionVars false

theorem rel_invoke (target : InstanceNo) (method : String) (args : List Value) :
    Rel [frame.receiver] (frame.invoke target method args)
      ((frame.beside mark second other).invoke target method args) :=
  lockstep.always
    (Dispatcher.rel_dispatch lockstep flat enters target ⟨method, args.length⟩ args rfl)

theorem rel_invokeSuper (method : String) (args : List Value) :
    Rel [frame.receiver] (frame.invokeSuper method args)
      ((frame.beside mark second other).invokeSuper method args) := by
  rw [invokeSuper_eq, invokeSuper_eq]
  change Rel _ _ (Action.lift (second.hierarchy.inheritedMethod frame.method.owner
    ⟨method, args.length⟩) >>= _)
  rw [lockstep.inherited]
  refine lockstep.lift_map _ _ ?_
  intro inherited found
  obtain ⟨parent, resolved⟩ := Hierarchy.resolve_of_inheritedMethod found
  refine lockstep.classOf frame.receiver ?_
  intro cls
  have declared : args.length = inherited.signature.arity := by
    rw [flat.signature_of_resolve resolved]
  exact lockstep.weaken (by simp)
    (enters frame.receiver cls inherited args (flat.has_of_resolve resolved) declared)

/-- The frame and the one beside it are in accord. -/
theorem accord :
    Accord mark (Rel [frame.receiver]) frame (frame.beside mark second other) where
  receiver := rfl
  signature := rfl
  lift _ := lockstep.always (lockstep.lift _)
  bind := lockstep.bind
  read id field := lockstep.always (lockstep.read id field)
  write id field value := lockstep.always (lockstep.write id field value)
  allocate := rel_allocate lockstep
  invoke := rel_invoke lockstep flat enters
  invokeSuper := rel_invokeSuper lockstep flat enters

omit flat enters in
theorem serves (asks : Asks Rel frame.dispatcher second) :
    Serves (Rel [frame.receiver]) frame (frame.beside mark second other) where
  depth := rfl
  attempt := lockstep.attempt
  domain := asks.domain frame.receiver
  allocate cls domain := by
    rw [allocate_eq, allocate_eq]
    exact asks.allocate frame.receiver cls domain

theorem rel_runBody (args : List Value)
    (permitted : frame.method.body.isExpr = true ∨ Asks Rel frame.dispatcher second)
    (owner : String) :
    Rel [frame.receiver] (frame.runBody owner args)
      ((frame.beside mark second other).runBody owner args) :=
  (accord lockstep flat enters).runBody args rfl (permitted.imp_right (serves lockstep)) owner

end Frame

/-! ## Calls of the host -/

namespace Dispatcher

variable {first second : Dispatcher} (lockstep : Lockstep mark Rel first second)

include lockstep in
theorem rel_exactReference (target : InstanceNo) :
    Rel [] (first.exactReference target) (second.exactReference target) := by
  refine lockstep.classOf target ?_
  intro exact
  exact lockstep.pure _

variable (flat : first.hierarchy.Flat decls)
include lockstep flat

theorem rel_run (remaining : Nat) (receiver : InstanceNo) (cls : ClassId) {method : Method}
    (has : first.hierarchy.Has method) (args : List Value) :
    Rel [receiver] (first.run remaining receiver cls method args)
      (second.run remaining receiver cls (method.mapMarks mark) args) := by
  induction remaining generalizing receiver cls method args with
  | zero =>
      rw [run, run, lockstep.limit]
      exact lockstep.always (lockstep.lift _)
  | succ remaining ih =>
      rw [run_succ_eq, run_succ_eq, lockstep.limit]
      refine lockstep.bind (lockstep.always (lockstep.announced receiver cls method _)) ?_
      intro owner
      have below : Enters mark Rel first.hierarchy (first.run remaining)
          (second.run remaining) := fun receiver cls method args has _ => ih receiver cls has args
      have same : (first.frameAt remaining receiver method).beside mark second
          (second.run remaining) =
            second.frameAt remaining receiver (method.mapMarks mark) := by
        simp only [frameAt, Frame.beside, lockstep.limit]
      rw [← same]
      exact @Frame.rel_runBody mark Rel decls (first.frameAt remaining receiver method) second
        (second.run remaining) lockstep flat below args (lockstep.asks has) owner

theorem rel_invoke (reference : Reference) (signature : Signature) (args : List Value) :
    Rel [] (first.invoke reference signature args) (second.invoke reference signature args) := by
  have permits : second.hierarchy.permits reference.staticType signature =
      (first.hierarchy.permits reference.staticType signature).map id := by
    rw [Hierarchy.permits_eq_map, Hierarchy.permits_eq_map, lockstep.resolve]
    cases first.hierarchy.resolve reference.staticType signature <;> rfl
  rw [invoke_eq, invoke_eq, permits]
  refine lockstep.lift_map _ _ ?_
  intro _ _
  refine lockstep.classOf reference.target ?_
  intro cls
  rw [lockstep.resolve]
  refine lockstep.lift_map _ _ ?_
  intro method resolved
  unfold runHost
  rw [lockstep.limit]
  exact rel_run lockstep flat _ _ cls (flat.has_of_resolve resolved) args

theorem rel_send (target : InstanceNo) (method : String) (args : List Value) :
    Rel [] (first.send target method args) (second.send target method args) := by
  refine lockstep.bind (rel_exactReference lockstep target) ?_
  intro reference
  exact rel_invoke lockstep flat reference ⟨method, args.length⟩ args

end Dispatcher

end Bodies

/-- A reference is checked by one dispatcher alone. -/
theorem Dispatcher.rel_reference {dispatcher : Dispatcher}
    (parametric : Parametric Rel dispatcher) (target : InstanceNo) (staticType : String) :
    Rel [] (dispatcher.reference target staticType) (dispatcher.reference target staticType) := by
  refine parametric.bind (parametric.lift _) ?_
  intro static
  refine parametric.classOf target ?_
  intro exact
  refine parametric.bind (parametric.always (parametric.lift _)) ?_
  intro below
  split
  · exact parametric.pure _
  · refine parametric.bind (parametric.always (parametric.lift _)) ?_
    intro exactClass
    refine parametric.bind (parametric.always (parametric.lift _)) ?_
    intro staticClass
    exact parametric.always (parametric.lift _)

end Lineage
