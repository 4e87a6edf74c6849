import Lineage.Event
import Lineage.Store

/-!
# Actions on a store

An action runs against a store and ends with an outcome, the store that it
leaves behind and the events that it emitted, in order.  A failure ends the
action, but what was done before it stays done.
-/

set_option autoImplicit false

namespace Lineage

/-- What running an action comes to. -/
structure Effect (α : Type) where
  result : Outcome α
  store : Store
  events : List Event

def Action (α : Type) := Store → Effect α

namespace Action

variable {α β γ : Type}

/-- Run one action and then, if it ends well, the one that its value gives. -/
def bind (action : Action α) (next : α → Action β) : Action β := fun store =>
  match action store with
  | ⟨.ok value, reached, events⟩ =>
      let rest := next value reached
      ⟨rest.result, rest.store, events ++ rest.events⟩
  | ⟨.error failure, reached, events⟩ => ⟨.error failure, reached, events⟩

instance : Monad Action where
  pure value := fun store => ⟨.ok value, store, []⟩
  bind := bind

/-- End with an outcome that does not depend on the store. -/
def lift (outcome : Outcome α) : Action α := fun store => ⟨outcome, store, []⟩

def raise (cause : Fault) : Action α := lift (refuse cause)

def emit (event : Event) : Action Unit := fun store => ⟨.ok (), store, [event]⟩

def query (ask : Store → Outcome α) : Action α := fun store => ⟨ask store, store, []⟩

def update (change : Store → Outcome Store) : Action Unit := fun store =>
  match change store with
  | .ok changed => ⟨.ok (), changed, []⟩
  | .error failure => ⟨.error failure, store, []⟩

/-- Hand a fault to the caller instead of ending.  A breach still ends. -/
def attempt (action : Action α) : Action (Except Fault α) := fun store =>
  match action store with
  | ⟨.ok value, reached, events⟩ => ⟨.ok (.ok value), reached, events⟩
  | ⟨.error (.fault cause), reached, events⟩ => ⟨.ok (.error cause), reached, events⟩
  | ⟨.error .breach, reached, events⟩ => ⟨.error .breach, reached, events⟩

def allocate (cls : Class) (domain : Domain) : Action InstanceNo := fun store =>
  ⟨.ok store.next, store.allocate cls domain, [.allocated store.next cls.name domain]⟩

def allocateNamed (classes : ClassTable) (cls : String) (domain : Domain) :
    Action InstanceNo := do
  let found ← lift (classes.lookup cls)
  allocate found domain

def release (id : InstanceNo) : Action Instance := fun store =>
  match store.release id with
  | .ok (inst, left) => ⟨.ok inst, left, [.released id]⟩
  | .error failure => ⟨.error failure, store, []⟩

/-! ## Running an action -/

@[simp] theorem run_pure (value : α) (store : Store) :
    (pure value : Action α) store = ⟨.ok value, store, []⟩ := rfl

@[simp] theorem run_lift (outcome : Outcome α) (store : Store) :
    lift outcome store = ⟨outcome, store, []⟩ := rfl

@[simp] theorem run_raise (cause : Fault) (store : Store) :
    (raise cause : Action α) store = ⟨refuse cause, store, []⟩ := rfl

@[simp] theorem run_emit (event : Event) (store : Store) :
    emit event store = ⟨.ok (), store, [event]⟩ := rfl

@[simp] theorem run_query (ask : Store → Outcome α) (store : Store) :
    query ask store = ⟨ask store, store, []⟩ := rfl

/-- After an action that ends well the next one runs on the store it reached, and
its events follow. -/
theorem run_bind_of_ok {action : Action α} {store reached : Store} {value : α}
    {events : List Event} (run : action store = ⟨.ok value, reached, events⟩)
    (next : α → Action β) :
    (action >>= next) store =
      ⟨(next value reached).result, (next value reached).store,
        events ++ (next value reached).events⟩ := by
  change bind action next store = _
  simp [bind, run]

/-- After a failure nothing else runs. -/
theorem run_bind_of_error {action : Action α} {store reached : Store} {failure : Failure}
    {events : List Event} (run : action store = ⟨.error failure, reached, events⟩)
    (next : α → Action β) :
    (action >>= next) store = ⟨.error failure, reached, events⟩ := by
  change bind action next store = _
  simp [bind, run]

/-! ## Laws of sequencing -/

theorem bind_pure_eq (action : Action α) : (action >>= pure) = action := by
  funext store
  change bind action _ store = _
  unfold bind
  rcases action store with ⟨_ | _, reached, events⟩
  · rfl
  · simp [pure]

theorem bind_assoc_eq (action : Action α) (next : α → Action β) (last : β → Action γ) :
    (action >>= next >>= last) = action >>= fun value => next value >>= last := by
  funext store
  change bind (bind action next) last store =
    bind action (fun value => bind (next value) last) store
  unfold bind
  rcases action store with ⟨_ | value, reached, events⟩
  · rfl
  · rcases second : next value reached with ⟨_ | _, _, _⟩ <;> simp [second]

instance : LawfulMonad Action :=
  LawfulMonad.mk' Action (fun action => bind_pure_eq action) (fun _ _ => rfl) bind_assoc_eq

end Action

end Lineage
