import Lineage.Proofs.Call.Activation
import Lineage.Proofs.Store.Ledger

/-!
# The calls of a run as a tree

The dispatches that a call reports are those of activations, each followed by all that it
starts (`Forest`).  A request either reports none, and then leaves the store as it was if it
is refused (`Silent`), or starts one activation and ends as that one does (`Runs`,
`silent_or_starts`).  A program is a sequence of requests (`exists_traces`), so this holds of
whole calls (`invoke_traces`).
-/

set_option autoImplicit false

namespace Lineage

open Native (Program Request)
open Relation (ReflTransGen)

/-- What is reported of a dispatch, but for the level. -/
structure Dispatch where
  receiver : InstanceNo
  cls : String
  method : Signature
  owner : String
  depth : Nat
  deriving DecidableEq, Repr

def Event.dispatch? : Event → Option Dispatch
  | .dispatched _ receiver cls method owner depth => some ⟨receiver, cls, method, owner, depth⟩
  | _ => none

/-- The dispatches that an effect reports, in order. -/
def Effect.dispatches {α : Type} (effect : Effect α) : List Dispatch :=
  effect.events.filterMap Event.dispatch?

namespace Activation

def dispatch (running : Activation) : Dispatch :=
  ⟨running.receiver, running.exact.name, running.method.signature, running.owner.name,
    running.depth⟩

/-- Activations that the first one starts one after another, each followed by those that
it starts itself. -/
inductive Forest (dispatcher : Dispatcher) : Activation → List Activation → Prop where
  | nil (running : Activation) : Forest dispatcher running []
  | cons {running called : Activation} {below rest : List Activation}
      (starts : running.Starts dispatcher called) (inner : Forest dispatcher called below)
      (after : Forest dispatcher running rest) :
      Forest dispatcher running (called :: (below ++ rest))

variable {dispatcher : Dispatcher} {decls : List ClassDecl} {running called : Activation}

theorem Forest.append {frames more : List Activation} (forest : Forest dispatcher running frames)
    (later : Forest dispatcher running more) : Forest dispatcher running (frames ++ more) := by
  induction forest with
  | nil running => exact later
  | cons starts inner _ _ ih =>
      rw [List.cons_append, List.append_assoc]
      exact .cons starts inner (ih later)

/-- All of them are started from the first one on. -/
theorem Forest.reached {frames : List Activation} (forest : Forest dispatcher running frames) :
    ∀ frame ∈ frames, ReflTransGen (Starts dispatcher) running frame := by
  induction forest with
  | nil running => exact List.forall_mem_nil _
  | cons starts _ _ below later =>
      refine List.forall_mem_cons.mpr ⟨.single starts, List.forall_mem_append.mpr ⟨?_, later⟩⟩
      exact fun frame isBelow => (ReflTransGen.single starts).trans (below frame isBelow)

/-- From the store on the effect reports the dispatches of these activations, and stores
only grow. -/
structure Traces (dispatcher : Dispatcher) (running : Activation) (store : Store)
    (frames : List Activation) {α : Type} (effect : Effect α) : Prop where
  forest : Forest dispatcher running frames
  dispatches : effect.dispatches = frames.map dispatch
  grown : store.Lasts effect.store
  lasts : ∀ frame ∈ frames, frame.start.Lasts effect.store

section Sequences
variable {α β : Type} {store : Store} {frames : List Activation}

theorem traces_of_silent {effect : Effect α} (silent : effect.dispatches = [])
    (grown : store.Lasts effect.store) : Traces dispatcher running store [] effect :=
  ⟨.nil running, silent, grown, List.forall_mem_nil _⟩

/-- An attempt does what the action does. -/
theorem attempt_does (action : Action α) (store : Store) :
    (Action.attempt action store).events = (action store).events ∧
      (Action.attempt action store).store = (action store).store := by
  unfold Action.attempt
  rcases action store with ⟨(_ | _) | _, _, _⟩ <;> exact ⟨rfl, rfl⟩

theorem Traces.attempt {action : Action α}
    (traces : Traces dispatcher running store frames (action store)) :
    Traces dispatcher running store frames (Action.attempt action store) := by
  obtain ⟨sameEvents, sameStore⟩ := attempt_does action store
  refine ⟨traces.forest, ?_, sameStore ▸ traces.grown, sameStore ▸ traces.lasts⟩
  rw [Effect.dispatches, sameEvents]
  exact traces.dispatches

theorem Traces.bind {action : Action α} {next : α → Action β}
    (first : Traces dispatcher running store frames (action store))
    (rest : ∀ value reached events, action store = ⟨.ok value, reached, events⟩ →
      ∃ more, Traces dispatcher running reached more (next value reached)) :
    ∃ all, Traces dispatcher running store all ((action >>= next) store) := by
  obtain ⟨forest, dispatches, grown, lasts⟩ := first
  rcases run : action store with ⟨failure | value, reached, events⟩
  · rw [Action.run_bind_of_error run]
    rw [run] at dispatches grown lasts
    exact ⟨frames, forest, dispatches, grown, lasts⟩
  · obtain ⟨more, later, dispatchesLater, grownLater, lastsLater⟩ := rest value reached events run
    rw [Action.run_bind_of_ok run]
    rw [run] at dispatches grown lasts
    refine ⟨frames ++ more, forest.append later, ?_, grown.trans grownLater, ?_⟩
    · unfold Effect.dispatches at dispatches dispatchesLater ⊢
      rw [List.filterMap_append, dispatches, dispatchesLater, List.map_append]
    · intro frame isThere
      rcases List.mem_append.mp isThere with isEarly | isLate
      · exact (lasts frame isEarly).trans grownLater
      · exact lastsLater frame isLate

end Sequences

/-! ## Requests -/

/-- What the body of the activation does. -/
def effect (dispatcher : Dispatcher) (running : Activation) : Effect Value :=
  (running.frame dispatcher).runBody running.owner.name running.args running.start

/-- The activation is reported, and then its body does what is done. -/
structure Runs (dispatcher : Dispatcher) (called : Activation) {α : Type} (effect : Effect α) :
    Prop where
  dispatches : effect.dispatches = called.dispatch :: (called.effect dispatcher).dispatches
  store : effect.store = (called.effect dispatcher).store
  failure : ∀ failure, effect.result = .error failure ↔
    (called.effect dispatcher).result = .error failure

end Activation

/-- The failures with which a request of a method is refused: those of the hierarchy, and
the one that calls are nested too deep. -/
def Dispatcher.Refuses (dispatcher : Dispatcher) (store : Store) (failure : Failure) : Prop :=
  dispatcher.hierarchy.Refuses store failure ∨
    failure = .fault (.callDepthExceeded dispatcher.options.maxCallDepth)

namespace Activation

variable {dispatcher : Dispatcher} {decls : List ClassDecl} {running called : Activation}

/-- From the store on the effect reports no dispatch, and if it is a failure then nothing at
all was done. -/
structure Silent (dispatcher : Dispatcher) (store : Store) {α : Type} (effect : Effect α) :
    Prop where
  dispatches : effect.dispatches = []
  refused : ∀ failure, effect.result = .error failure →
    effect = ⟨.error failure, store, []⟩ ∧ dispatcher.Refuses store failure

section Silence
variable {α : Type} {store : Store}

theorem silent_of_refuses {failure : Failure} (refuses : dispatcher.Refuses store failure) :
    Silent dispatcher store (⟨.error failure, store, []⟩ : Effect α) where
  dispatches := rfl
  refused other same := by
    cases same
    exact ⟨rfl, refuses⟩

/-- What is only asked of the store is answered or refused. -/
theorem silent_of_explains {outcome : Outcome α}
    (explains : dispatcher.hierarchy.Explains store outcome) :
    Silent dispatcher store (⟨outcome, store, []⟩ : Effect α) where
  dispatches := rfl
  refused failure failed :=
    ⟨congrArg (Effect.mk · store []) failed, .inl (not_not.mp (explains failure failed))⟩

theorem silent_update {change : Store → Outcome Store}
    (explains : dispatcher.hierarchy.Explains store (change store)) :
    Silent dispatcher store (Action.update change store) := by
  unfold Action.update
  cases changed : change store with
  | error failure => exact silent_of_refuses (.inl (not_not.mp (explains failure changed)))
  | ok after => exact ⟨rfl, nofun⟩

theorem silent_allocateNamed (flat : dispatcher.hierarchy.Flat decls) (cls : String)
    (domain : Domain) : Silent dispatcher store (dispatcher.allocate cls domain store) := by
  change Silent dispatcher store (Action.allocateNamed _ cls domain store)
  unfold Action.allocateNamed
  have explains : dispatcher.hierarchy.Explains store (dispatcher.hierarchy.classes.lookup cls) :=
    Hierarchy.explains_of_classed (classed_lookup flat.holds cls)
  cases named : dispatcher.hierarchy.classes.lookup cls with
  | error failure => exact silent_of_refuses (.inl (not_not.mp (explains failure named)))
  | ok found => exact ⟨rfl, nofun⟩

theorem silent_allocate (flat : dispatcher.hierarchy.Flat decls) (cls : String)
    (domain : Option Domain) :
    Silent dispatcher store ((running.frame dispatcher).allocate cls domain store) := by
  cases domain with
  | some domain => exact silent_allocateNamed flat cls domain
  | none =>
      have explains : dispatcher.hierarchy.Explains store (store.domainOf running.receiver) :=
        (Hierarchy.explains_get _ store _).map _
      cases known : store.domainOf running.receiver with
      | error failure =>
          have asked : (running.frame dispatcher).domain store = ⟨.error failure, store, []⟩ :=
            congrArg (Effect.mk · store []) known
          have refused : (running.frame dispatcher).allocate cls none store =
              ⟨.error failure, store, []⟩ := Action.run_bind_of_error asked _
          rw [refused]
          exact silent_of_refuses (.inl (not_not.mp (explains failure known)))
      | ok domain =>
          have asked : (running.frame dispatcher).domain store = ⟨.ok domain, store, []⟩ :=
            congrArg (Effect.mk · store []) known
          have goesOn : (running.frame dispatcher).allocate cls none store =
              dispatcher.allocate cls domain store := Action.run_bind_of_ok asked _
          rw [goesOn]
          exact silent_allocateNamed flat cls domain

end Silence

/-- The report of the activation, and then its body. -/
def enter (dispatcher : Dispatcher) (called : Activation) : Action Value := do
  Action.emit (.dispatched dispatcher.dispatchLevel called.receiver called.exact.name
    called.method.signature called.owner.name called.depth)
  (called.frame dispatcher).runBody called.owner.name called.args

section Entering
variable {store : Store} {receiver : InstanceNo} {exact owner : Class} {method : Method}
  (starts : dispatcher.hierarchy.Starts store receiver exact owner method) (args : List Value)
  {depth : Nat} (within : depth < dispatcher.options.maxCallDepth)
include starts within

/-- While levels are left, a method that starts is entered. -/
theorem run_eq_enter :
    dispatcher.run (dispatcher.options.maxCallDepth - depth) receiver exact.id method args =
      enter dispatcher ⟨receiver, exact, owner, method, args, depth, store⟩ := by
  obtain ⟨remaining, isNext⟩ : ∃ remaining,
      dispatcher.options.maxCallDepth = depth + 1 + remaining := Nat.exists_eq_add_of_le within
  have left : dispatcher.options.maxCallDepth - depth = remaining + 1 := by omega
  have below : dispatcher.options.maxCallDepth - (depth + 1) = remaining := by omega
  have here : dispatcher.options.maxCallDepth - (remaining + 1) = depth := by omega
  rw [left, Dispatcher.run_of_starts starts remaining args, here]
  simp only [enter, frame, Dispatcher.frameAt, here, below]

theorem entered_of_starts :
    Entered dispatcher ⟨receiver, exact, owner, method, args, depth, store⟩ := by
  obtain ⟨inst, live, isExact⟩ := starts.live
  have known : dispatcher.classOf receiver store = ⟨.ok exact.id, store, []⟩ :=
    Dispatcher.classOf_of_live live (isExact ▸ starts.exactFound)
  exact ⟨known, starts.exactFound, starts.owned ▸ starts.ownerFound, within⟩

end Entering

theorem invokeSuper_of_inherited {store : Store} {id : ClassId}
    (known : dispatcher.classOf running.receiver store = ⟨.ok id, store, []⟩) {name : String}
    {args : List Value} {method : Method}
    (inherited : dispatcher.hierarchy.inheritedMethod running.method.owner ⟨name, args.length⟩ =
      .ok method) :
    (running.frame dispatcher).invokeSuper name args store =
      dispatcher.run (dispatcher.options.maxCallDepth - (running.depth + 1)) running.receiver id
        method args store := by
  rw [Frame.invokeSuper_eq]
  change (Action.lift (dispatcher.hierarchy.inheritedMethod running.method.owner
    ⟨name, args.length⟩) >>= _) store = _
  rw [inherited, Action.lift_ok_bind]
  exact Action.run_bind_of_ok known _

theorem runs_enter (called : Activation) :
    called.Runs dispatcher (called.enter dispatcher called.start) := by
  rw [enter, Action.run_bind_of_ok (Action.run_emit _ called.start)]
  exact ⟨rfl, rfl, fun _ => Iff.rfl⟩

/-- A method that starts is entered, unless the calls are nested too deep. -/
theorem silent_or_runs {store : Store} {receiver : InstanceNo} {exact owner : Class}
    {method : Method}
    (starts : dispatcher.hierarchy.Starts store receiver exact owner method) (args : List Value)
    (depth : Nat) :
    let called : Activation := ⟨receiver, exact, owner, method, args, depth, store⟩
    let run := dispatcher.run (dispatcher.options.maxCallDepth - depth) receiver exact.id method
      args store
    Silent dispatcher store run ∨ called.Entered dispatcher ∧ called.Runs dispatcher run := by
  intro called run
  by_cases within : depth < dispatcher.options.maxCallDepth
  · have entered : run = called.enter dispatcher store :=
      congrFun (run_eq_enter starts args within) store
    rw [entered]
    exact .inr ⟨entered_of_starts starts args within, runs_enter called⟩
  · left
    have left : dispatcher.options.maxCallDepth - depth = 0 := by omega
    simp only [run, left]
    exact silent_of_refuses (.inr rfl)

section Runs
variable (flat : dispatcher.hierarchy.Flat decls)
include flat

/-- An activation that has been entered with a method that some class resolves runs. -/
theorem Entered.runs (entered : called.Entered dispatcher) {id : ClassId} {signature : Signature}
    (resolved : dispatcher.hierarchy.resolve id signature = .ok called.method) :
    called.Runs dispatcher (dispatcher.run (dispatcher.options.maxCallDepth - called.depth)
      called.receiver called.exact.id called.method called.args called.start) := by
  obtain ⟨inst, live, isExact⟩ := entered.live flat
  obtain ⟨owner, starts⟩ := flat.starts_of_resolve live isExact entered.exactFound resolved
  have ownerFound := entered.ownerFound
  rw [starts.owned, starts.ownerFound] at ownerFound
  cases Option.some.inj ownerFound
  rw [run_eq_enter starts called.args entered.within]
  exact runs_enter called

/-- The request with which an activation starts another one ends as that one does. -/
theorem Starts.runs (starts : running.Starts dispatcher called) :
    ∃ request next, running.Reaches dispatcher (.ask request next) called.start ∧
      called.Runs dispatcher ((running.frame dispatcher).answer request called.start) := by
  obtain ⟨request, next, reaches, asks⟩ := starts.asked
  refine ⟨request, next, reaches, ?_⟩
  cases asks with
  | @invoke name resolved =>
      obtain ⟨inst, live, isExact⟩ := starts.entered.live flat
      have entered : (running.frame dispatcher).answer
          (.invoke called.receiver name called.args) called.start =
            dispatcher.run (dispatcher.options.maxCallDepth - (running.depth + 1))
              called.receiver called.exact.id called.method called.args called.start := by
        change dispatcher.dispatch _ _ _ _ _ = _
        rw [Dispatcher.dispatch_of_live _ _ _ live (isExact ▸ starts.entered.exactFound), resolved]
        rfl
      rw [entered, ← starts.deeper]
      exact starts.entered.runs flat resolved
  | @super name same inherited =>
      obtain ⟨parent, resolved⟩ := Hierarchy.resolve_of_inheritedMethod inherited
      have known := starts.entered.exact
      rw [same] at known
      have entered : (running.frame dispatcher).answer (.invokeSuper name called.args)
          called.start = _ := invokeSuper_of_inherited known inherited
      rw [entered, ← same, ← starts.deeper]
      exact starts.entered.runs flat resolved

/-- So does the call of the host. -/
theorem Begins.runs {first : Activation} {reference : Reference} {signature : Signature}
    {args : List Value} {store : Store}
    (begins : first.Begins dispatcher reference signature args store) :
    first.Runs dispatcher (dispatcher.invoke reference signature args store) := by
  obtain ⟨entered, outermost, permitted, receiver, resolved, rfl, rfl⟩ := begins
  obtain ⟨inst, live, isExact⟩ := entered.live flat
  rw [Dispatcher.invoke_eq, permitted, Action.lift_ok_bind, ← receiver,
    Dispatcher.dispatch_of_live _ _ _ live (isExact ▸ entered.exactFound), resolved,
    Action.lift_ok_bind]
  have runs := entered.runs flat resolved
  rw [outermost] at runs
  exact runs

/-- A request of a running method is silent or starts one more method. -/
theorem silent_or_starts (stands : running.Stands dispatcher) {request : Request}
    {next : Except Fault request.Reply → Program Value} {store : Store}
    (reaches : running.Reaches dispatcher (.ask request next) store) :
    Silent dispatcher store ((running.frame dispatcher).answer request store) ∨
      ∃ called, running.Starts dispatcher called ∧ called.start = store ∧
        called.Runs dispatcher ((running.frame dispatcher).answer request store) := by
  cases request with
  | domain => exact .inl (silent_of_explains ((Hierarchy.explains_get _ store _).map _))
  | read target field =>
      exact .inl (silent_of_explains (Hierarchy.explains_read _ store target field))
  | write target field value =>
      left
      change Silent dispatcher store (dispatcher.write target field value store)
      exact silent_update (Hierarchy.explains_write _ store target field value)
  | allocate cls domain => exact .inl (silent_allocate flat cls domain)
  | invoke target name args =>
      change Silent dispatcher store ((running.frame dispatcher).invoke target name args store) ∨
        ∃ called : Activation, _ ∧ _ ∧ called.Runs dispatcher
          ((running.frame dispatcher).invoke target name args store)
      obtain ⟨cause, refuses, refused⟩ | ⟨exact, owner, method, starts, resolved, started⟩ :=
        flat.dispatch_cases target ⟨name, args.length⟩ args store
      · have nothing : (running.frame dispatcher).invoke target name args store =
            ⟨refuse cause, store, []⟩ := refused dispatcher.options _
        rw [nothing]
        exact .inl (silent_of_refuses (.inl refuses))
      · have enters : (running.frame dispatcher).invoke target name args store =
            (running.frame dispatcher).enter target exact.id method args store :=
          started dispatcher.options _
        rw [enters]
        obtain silent | ⟨entered, runs⟩ := silent_or_runs starts args (running.depth + 1)
        · exact .inl silent
        · exact .inr ⟨_, ⟨entered, rfl, _, next, reaches, .invoke resolved⟩, rfl, runs⟩
  | invokeSuper name args =>
      change Silent dispatcher store ((running.frame dispatcher).invokeSuper name args store) ∨
        ∃ called : Activation, _ ∧ _ ∧ called.Runs dispatcher
          ((running.frame dispatcher).invokeSuper name args store)
      obtain ⟨cause, refuses, refused⟩ | ⟨exact, owner, method, starts, inherited, started⟩ :=
        flat.super_cases stands.entered.ownerFound running.receiver running.depth name args store
      · have nothing : (running.frame dispatcher).invokeSuper name args store =
            ⟨refuse cause, store, []⟩ := refused dispatcher.options _
        rw [nothing]
        exact .inl (silent_of_refuses (.inl refuses))
      · have enters : (running.frame dispatcher).invokeSuper name args store =
            (running.frame dispatcher).enter running.receiver exact.id method args store :=
          started dispatcher.options _
        rw [enters]
        obtain silent | ⟨entered, runs⟩ := silent_or_runs starts args (running.depth + 1)
        · exact .inl silent
        · exact .inr ⟨_, ⟨entered, rfl, _, next, reaches, .super rfl inherited⟩, rfl, runs⟩

section Points
variable (stands : running.Stands dispatcher)
  (inner : ∀ called, running.Starts dispatcher called →
    ∃ below, Traces dispatcher called called.start below (called.effect dispatcher))
include stands inner

theorem traces_of_answer {request : Request} {next : Except Fault request.Reply → Program Value}
    {store : Store} (reaches : running.Reaches dispatcher (.ask request next) store) :
    ∃ frames, Traces dispatcher running store frames
      ((running.frame dispatcher).answer request store) := by
  have grown := (Store.steady_lasts dispatcher.hierarchy.classes).of_course
    (through_answer flat running request store)
  obtain silent | ⟨called, starts, rfl, runs⟩ := silent_or_starts flat stands reaches
  · exact ⟨[], traces_of_silent silent.dispatches grown⟩
  · obtain ⟨below, forest, dispatches, calledGrown, lasts⟩ := inner called starts
    refine ⟨called :: (below ++ []), .cons starts forest (.nil running), ?_, grown, ?_⟩
    · rw [runs.dispatches, dispatches, List.append_nil, List.map_cons]
    · rw [runs.store, List.append_nil]
      exact List.forall_mem_cons.mpr ⟨calledGrown, lasts⟩

/-- From every point on the activation reports what it starts there. -/
theorem traces_of_program (program : Program Value) {store : Store}
    (reaches : running.Reaches dispatcher program store) :
    ∃ frames, Traces dispatcher running store frames
      ((running.frame dispatcher).perform running.owner.name program store) := by
  induction program generalizing store with
  | done value => exact ⟨[], traces_of_silent rfl store.lasts_refl⟩
  | fail cause => exact ⟨[], traces_of_silent rfl store.lasts_refl⟩
  | raise fault => exact ⟨[], traces_of_silent rfl store.lasts_refl⟩
  | ask request next ih =>
      obtain ⟨frames, traces⟩ := traces_of_answer flat stands inner reaches
      refine traces.attempt.bind ?_
      intro reply reached events run
      exact ih reply (reaches.reply run)

end Points

/-- An activation reports what it starts. -/
theorem exists_traces (stands : running.Stands dispatcher) :
    ∃ frames, Traces dispatcher running running.start frames (running.effect dispatcher) := by
  -- the levels of nesting that are left decrease from an activation to those that it starts
  induction left : dispatcher.options.maxCallDepth - running.depth
    generalizing running with
  | zero => exact absurd stands.entered.within (by omega)
  | succ remaining ih =>
      rw [effect, Frame.runBody_eq_perform]
      refine traces_of_program flat stands ?_ _ .start
      intro called starts
      have deeper := starts.deeper
      exact ih (stands_of_starts flat stands starts).1 (by omega)

/-- A call of the host is silent, or it is an activation with all that it starts. -/
theorem silent_or_begins (reference : Reference) (signature : Signature) (args : List Value)
    (store : Store) :
    Silent dispatcher store (dispatcher.invoke reference signature args store) ∨
      ∃ first : Activation, first.Begins dispatcher reference signature args store ∧
        first.Runs dispatcher (dispatcher.invoke reference signature args store) := by
  rw [Dispatcher.invoke_eq]
  have classed := flat.classed_permits reference.staticType signature
  cases permitted : dispatcher.hierarchy.permits reference.staticType signature with
  | error failure =>
      exact .inl (silent_of_refuses (.inl (.ofClasses (not_not.mp (classed failure permitted)))))
  | ok checked =>
      rw [Action.lift_ok_bind]
      obtain ⟨cause, refuses, refused⟩ | ⟨exact, owner, method, starts, resolved, started⟩ :=
        flat.dispatch_cases reference.target signature args store
      · have nothing : dispatcher.dispatch dispatcher.runHost reference.target signature args
            store = ⟨refuse cause, store, []⟩ := refused dispatcher.options _
        rw [nothing]
        exact .inl (silent_of_refuses (.inl refuses))
      · have enters : dispatcher.dispatch dispatcher.runHost reference.target signature args
            store = dispatcher.run (dispatcher.options.maxCallDepth - 0) reference.target exact.id
              method args store := started dispatcher.options _
        rw [enters]
        obtain silent | ⟨entered, runs⟩ := silent_or_runs starts args 0
        · exact .inl silent
        · exact .inr ⟨_, ⟨entered, rfl, permitted, rfl, resolved, rfl, rfl⟩, runs⟩

/-- What a call of the host reports: nothing, or the first activation and those that it
starts. -/
theorem invoke_traces (reference : Reference) (signature : Signature) (args : List Value)
    (store : Store) :
    let run := dispatcher.invoke reference signature args store
    run.dispatches = [] ∨
      ∃ first below, first.Begins dispatcher reference signature args store ∧
        Forest dispatcher first below ∧
        run.dispatches = (first :: below).map dispatch ∧
        ∀ frame ∈ first :: below, frame.start.Lasts run.store := by
  intro run
  obtain silent | ⟨first, begins, runs⟩ := silent_or_begins flat reference signature args store
  · exact .inl silent.dispatches
  · obtain ⟨below, forest, dispatches, grown, lasts⟩ :=
      exists_traces flat (stands_of_begins flat begins)
    refine .inr ⟨first, below, begins, forest, ?_, ?_⟩
    · rw [runs.dispatches, dispatches, List.map_cons]
    · rw [runs.store]
      exact List.forall_mem_cons.mpr ⟨grown, lasts⟩

end Runs

end Activation

end Lineage
