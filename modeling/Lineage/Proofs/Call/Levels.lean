import Lineage.Proofs.Call.Parametric

/-!
# The level of dispatches

At which level dispatches are reported is up to an option that nothing else looks at.  So
a call through a dispatcher with the other setting does the same and reports the same, but
for the level of dispatches (`invoke_tracing`).
-/

set_option autoImplicit false

namespace Lineage

/-- The event with another level, if it is a dispatch. -/
def Event.atLevel (level : Level) : Event → Event
  | .dispatched _ receiver cls method owner depth =>
      .dispatched level receiver cls method owner depth
  | event => event

def Effect.atLevel (level : Level) {α : Type} (effect : Effect α) : Effect α :=
  { effect with events := effect.events.map (Event.atLevel level) }

/-- The second action does what the first does and reports dispatches at the level. -/
def Action.Relevels (level : Level) {α : Type} (one other : Action α) : Prop :=
  ∀ store, other store = (one store).atLevel level

namespace Action

variable {level : Level} {α β : Type}

theorem relevels_lift (outcome : Outcome α) : Relevels level (lift outcome) (lift outcome) :=
  fun _ => rfl

theorem relevels_query (ask : Store → Outcome α) : Relevels level (query ask) (query ask) :=
  fun _ => rfl

theorem relevels_update (change : Store → Outcome Store) :
    Relevels level (update change) (update change) := by
  intro store
  unfold update
  split <;> rfl

theorem Relevels.bind {one other : Action α} {next after : α → Action β}
    (first : Relevels level one other) (rest : ∀ value, Relevels level (next value) (after value)) :
    Relevels level (one >>= next) (other >>= after) := by
  intro store
  have same := first store
  rcases run : one store with ⟨failure | value, reached, events⟩
  · rw [run] at same
    rw [run_bind_of_error run, run_bind_of_error same]
    rfl
  · rw [run] at same
    rw [run_bind_of_ok run, run_bind_of_ok same, rest value reached]
    simp only [Effect.atLevel, List.map_append]

theorem Relevels.attempt {one other : Action α} (same : Relevels level one other) :
    Relevels level (Action.attempt one) (Action.attempt other) := by
  intro store
  unfold Action.attempt
  rw [same store]
  rcases one store with ⟨(_ | _) | _, _, _⟩ <;> rfl

theorem relevels_allocateNamed (classes : ClassTable) (cls : String) (domain : Domain) :
    Relevels level (allocateNamed classes cls domain) (allocateNamed classes cls domain) := by
  unfold allocateNamed
  exact (relevels_lift _).bind fun found store => rfl

end Action

open Action (Relevels relevels_lift relevels_query relevels_update relevels_allocateNamed)

namespace Dispatcher

/-- The same dispatcher with the option set or not. -/
def tracing (dispatcher : Dispatcher) (traceCalls : Bool) : Dispatcher :=
  { dispatcher with options := { dispatcher.options with traceCalls := traceCalls } }

variable (dispatcher : Dispatcher) (traceCalls : Bool)

theorem relevels_classOf (target : InstanceNo) :
    Relevels (dispatcher.tracing traceCalls).dispatchLevel (dispatcher.classOf target)
      ((dispatcher.tracing traceCalls).classOf target) :=
  (relevels_query _).bind fun _ => (relevels_lift _).bind fun _ => relevels_lift (.ok _)

theorem relevels_allocateFor (receiver : InstanceNo) (cls : String) (domain : Option Domain) :
    Relevels (dispatcher.tracing traceCalls).dispatchLevel
      (dispatcher.allocateFor receiver cls domain)
      ((dispatcher.tracing traceCalls).allocateFor receiver cls domain) := by
  cases domain with
  | some domain => exact relevels_allocateNamed _ cls domain
  | none => exact (relevels_query _).bind fun domain => relevels_allocateNamed _ cls domain

theorem relevels_announced (receiver : InstanceNo) (id : ClassId) (method : Method)
    (depth : Nat) :
    Relevels (dispatcher.tracing traceCalls).dispatchLevel
      (dispatcher.announced receiver id method depth)
      ((dispatcher.tracing traceCalls).announced receiver id method depth) :=
  (relevels_lift _).bind fun _ => (relevels_lift _).bind fun _ =>
    Relevels.bind (fun _ => rfl) fun _ => relevels_lift (.ok _)

/-- The two settings take every step of a call together. -/
theorem lockstep_tracing :
    Lockstep id (fun _ => Relevels (dispatcher.tracing traceCalls).dispatchLevel) dispatcher
      (dispatcher.tracing traceCalls) where
  weaken _ same := same
  lift := relevels_lift
  bind := Relevels.bind
  attempt := Relevels.attempt
  limit := rfl
  resolve _ _ := (Method.map_mapMarks_id _).symm
  inherited _ _ := (Method.map_mapMarks_id _).symm
  announced receiver cls method depth := by
    rw [Method.mapMarks_id]
    exact dispatcher.relevels_announced traceCalls receiver cls method depth
  classOf target _ _ rest := (dispatcher.relevels_classOf traceCalls target).bind rest
  read _ _ := relevels_query _
  write _ _ _ := relevels_update _
  allocate := dispatcher.relevels_allocateFor traceCalls
  asks _ := .inr ⟨fun _ => relevels_query _, dispatcher.relevels_allocateFor traceCalls⟩

/-- The option changes the level of dispatches and nothing else. -/
theorem invoke_tracing {dispatcher : Dispatcher} {decls : List ClassDecl}
    (flat : dispatcher.hierarchy.Flat decls) (traceCalls : Bool) (reference : Reference)
    (signature : Signature) (args : List Value) (store : Store) :
    (dispatcher.tracing traceCalls).invoke reference signature args store =
      (dispatcher.invoke reference signature args store).atLevel
        (dispatcher.tracing traceCalls).dispatchLevel :=
  rel_invoke (dispatcher.lockstep_tracing traceCalls) flat reference signature args store

end Dispatcher

end Lineage
