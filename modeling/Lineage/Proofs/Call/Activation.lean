import Mathlib.Logic.Relation
import Lineage.Proofs.Call.Entry
import Lineage.Proofs.Call.Script
import Lineage.Proofs.Store.Evolution

/-!
# Methods that run

An activation is one method that runs within a call.  It comes from point to point by
being answered (`Reaches`), and where it asks for a call or goes to the parent it starts
the next one (`Starts`); the first is begun by the host (`Begins`).  What is known of an
activation when it begins (`Stands`) is known of every one that it starts
(`stands_of_starts`), and so of all that are ever started (`stands_of_reached`); what its
receiver is stays the same, for stores only grow on the way.
-/

set_option autoImplicit false

namespace Lineage

open Native (Program Request)
open Relation (ReflTransGen)

/-- A method that runs: on a receiver of an exact class, declared by a class, with
arguments, and started on a store. -/
structure Activation where
  receiver : InstanceNo
  exact : Class
  owner : Class
  method : Method
  args : List Value
  depth : Nat
  start : Store

namespace Activation

section Running
variable (dispatcher : Dispatcher) (running called : Activation)

def frame : Frame where
  dispatcher := dispatcher
  enter := dispatcher.run (dispatcher.options.maxCallDepth - (running.depth + 1))
  receiver := running.receiver
  method := running.method
  depth := running.depth

def program : Program Value :=
  (running.frame dispatcher).program running.owner.name running.args

/-- The points that the activation comes to: what is left of its program, and the store. -/
inductive Reaches : Program Value → Store → Prop where
  | start : Reaches (running.program dispatcher) running.start
  | reply {request : Request} {next : Except Fault request.Reply → Program Value}
      {reply : Except Fault request.Reply} {store reached : Store} {events : List Event}
      (before : Reaches (.ask request next) store)
      (run : Action.attempt ((running.frame dispatcher).answer request) store =
        ⟨.ok reply, reached, events⟩) : Reaches (next reply) reached

/-- The request of the one activation is for the other: its receiver is called and its
exact class resolves the method, or the class that declares the running method inherits
it. -/
inductive Asks (hierarchy : Hierarchy) : Request → Prop where
  | invoke {name : String} (resolved : hierarchy.resolve called.exact.id
      ⟨name, called.args.length⟩ = .ok called.method) :
      Asks hierarchy (.invoke called.receiver name called.args)
  | super {name : String} (same : called.receiver = running.receiver)
      (inherited : hierarchy.inheritedMethod running.method.owner
        ⟨name, called.args.length⟩ = .ok called.method) :
      Asks hierarchy (.invokeSuper name called.args)

/-- The classes of the activation are those of its receiver and of its method, and its
depth is within the limit. -/
structure Entered : Prop where
  exact : dispatcher.classOf running.receiver running.start =
    ⟨.ok running.exact.id, running.start, []⟩
  exactFound : dispatcher.hierarchy.classes.find? running.exact.id = some running.exact
  ownerFound : dispatcher.hierarchy.classes.find? running.method.owner = some running.owner
  within : running.depth < dispatcher.options.maxCallDepth

/-- The one activation starts the other. -/
structure Starts : Prop where
  entered : called.Entered dispatcher
  deeper : called.depth = running.depth + 1
  asked : ∃ request next, running.Reaches dispatcher (.ask request next) called.start ∧
    running.Asks called dispatcher.hierarchy request

/-- The host starts the activation. -/
structure Begins (reference : Reference) (signature : Signature) (args : List Value)
    (store : Store) : Prop where
  entered : running.Entered dispatcher
  outermost : running.depth = 0
  permitted : dispatcher.hierarchy.permits reference.staticType signature = .ok ()
  receiver : running.receiver = reference.target
  resolved : dispatcher.hierarchy.resolve running.exact.id signature = .ok running.method
  args : running.args = args
  start : running.start = store

end Running

variable {dispatcher : Dispatcher} {decls : List ClassDecl} {running called : Activation}

/-! ## What is known when an activation starts -/

/-- The activation has been entered, and its method is declared by the exact class of its
receiver or by one of the ancestors. -/
structure Stands (dispatcher : Dispatcher) (running : Activation) : Prop where
  entered : running.Entered dispatcher
  above : ∃ before after,
    dispatcher.hierarchy.classes.Chain running.exact (before ++ running.owner :: after)
  declared : running.method ∈ running.owner.methods

/-- The method is the one that the exact class of the receiver provides, or the one that
the parent of the class that declares the running method provides, for the same receiver. -/
def Chosen (hierarchy : Hierarchy) (running called : Activation) : Prop :=
  hierarchy.Provides called.exact called.method.signature called.owner called.method ∨
    called.receiver = running.receiver ∧ called.exact = running.exact ∧
      ∃ parent upper, running.owner.parent = some parent ∧
        hierarchy.classes.find? parent = some upper ∧
        hierarchy.Provides upper called.method.signature called.owner called.method

/-- On this store the receiver is there and of the same exact class, so that the activation
may ask for the domain of the receiver and go to the parent. -/
structure Attended (dispatcher : Dispatcher) (running : Activation) (store : Store) : Prop where
  live : ∃ inst, store.find? running.receiver = some inst ∧ inst.cls = running.exact.id ∧
    (running.frame dispatcher).domain store = ⟨.ok inst.domain, store, []⟩
  exact : dispatcher.classOf running.receiver store = ⟨.ok running.exact.id, store, []⟩

section Standing
variable (flat : dispatcher.hierarchy.Flat decls)
include flat

theorem Entered.live (entered : running.Entered dispatcher) :
    ∃ inst, running.start.find? running.receiver = some inst ∧ inst.cls = running.exact.id := by
  have known : (dispatcher.classOf running.receiver running.start).result =
      .ok running.exact.id := by rw [entered.exact]
  obtain ⟨inst, exact, live, isExact, same, _⟩ := Dispatcher.exists_of_classOf flat known
  exact ⟨inst, live, isExact.trans same⟩

/-- The receiver of an activation stays what it is for as long as stores only grow. -/
theorem Entered.attended (entered : running.Entered dispatcher) {store : Store}
    (lasts : running.start.Lasts store) : running.Attended dispatcher store := by
  obtain ⟨inst, live, isExact⟩ := entered.live flat
  obtain ⟨now, nowLive, same⟩ := lasts.kept running.receiver inst live not_false
  have nowExact : now.cls = running.exact.id := same.cls.trans isExact
  refine ⟨⟨now, nowLive, nowExact, ?_⟩, ?_⟩
  · simp only [Frame.domain, frame, Action.run_query, Store.domainOf,
      (store.get_eq_ok_iff running.receiver now).mpr nowLive]
    rfl
  · exact Dispatcher.classOf_of_live nowLive (nowExact ▸ entered.exactFound)

/-- Two activations on one receiver are on one exact class. -/
theorem Entered.exact_eq (entered : running.Entered dispatcher)
    (lasts : running.start.Lasts called.start) (calledEntered : called.Entered dispatcher)
    (same : called.receiver = running.receiver) : called.exact = running.exact := by
  have known := calledEntered.exact
  rw [same, (entered.attended flat lasts).exact] at known
  have sameId : running.exact.id = called.exact.id := Except.ok.inj (Effect.mk.inj known).1
  have found := calledEntered.exactFound
  rw [← sameId, entered.exactFound] at found
  exact (Option.some.inj found).symm

/-- What a class at or above the exact class of the receiver resolves is declared there. -/
theorem Entered.stands (entered : running.Entered dispatcher) {cls : Class}
    {before after : List Class}
    (chained : dispatcher.hierarchy.classes.Chain running.exact (before ++ cls :: after))
    {id : ClassId} (found : dispatcher.hierarchy.classes.find? id = some cls)
    {signature : Signature}
    (resolved : dispatcher.hierarchy.resolve id signature = .ok running.method) :
    running.Stands dispatcher ∧ running.method.signature = signature ∧
      dispatcher.hierarchy.Provides cls signature running.owner running.method := by
  obtain ⟨known, owner, knownFound, provides, ownerFound⟩ := flat.provides_of_resolve resolved
  cases Option.some.inj (knownFound.symm.trans found)
  have sameOwner : owner = running.owner := by
    have declaring := entered.ownerFound
    rw [provides.owned, ownerFound] at declaring
    exact Option.some.inj declaring
  subst sameOwner
  obtain ⟨declared, same⟩ := provides.declared
  obtain ⟨lower, upper, split, _⟩ := provides.nearest
  have above : dispatcher.hierarchy.classes.Chain running.exact
      ((before ++ lower) ++ running.owner :: upper) := by
    rw [List.append_assoc, ← chained.of_append.unique split]
    exact chained
  exact ⟨⟨entered, ⟨_, _, above⟩, declared⟩, same, provides⟩

/-- What the exact class of the receiver itself resolves. -/
theorem Entered.stands_of_exact (entered : running.Entered dispatcher) {signature : Signature}
    (resolved : dispatcher.hierarchy.resolve running.exact.id signature = .ok running.method) :
    running.Stands dispatcher ∧ running.method.signature = signature ∧
      dispatcher.hierarchy.Provides running.exact signature running.owner running.method := by
  obtain ⟨chain, chained⟩ := flat.holds.exists_chain entered.exactFound
  obtain ⟨rest, shape⟩ := chained.eq_cons
  rw [← List.nil_append chain, shape] at chained
  exact entered.stands flat chained entered.exactFound resolved

theorem stands_of_begins {reference : Reference} {signature : Signature} {args : List Value}
    {store : Store} (begins : running.Begins dispatcher reference signature args store) :
    running.Stands dispatcher :=
  (begins.entered.stands_of_exact flat begins.resolved).1

/-! ## The course of an activation -/

/-- What a request does and what a program does are courses. -/
theorem through_frame (running : Activation) :
    let frame := running.frame dispatcher
    (∀ request, (frame.answer request).Through dispatcher.hierarchy.classes) ∧
      ∀ owner program, (frame.perform owner program).Through dispatcher.hierarchy.classes := by
  have accord := Dispatcher.accord_through flat _ (running.frame dispatcher) rfl rfl
  have parametric := dispatcher.parametric_through
  have serves := @Frame.serves id _ (running.frame dispatcher) dispatcher
    (running.frame dispatcher).enter parametric.lockstep parametric.asks
  exact ⟨accord.answer serves, accord.perform serves⟩

theorem through_answer (running : Activation) (request : Request) :
    ((running.frame dispatcher).answer request).Through dispatcher.hierarchy.classes :=
  (through_frame flat running).1 request

theorem Reaches.lasts {program : Program Value} {store : Store}
    (reaches : running.Reaches dispatcher program store) : running.start.Lasts store := by
  induction reaches with
  | start => exact running.start.lasts_refl
  | @reply request _ _ store reached _ _ run ih =>
      have course := (through_answer flat running request).attempt store
      rw [run] at course
      exact ih.trans ((Store.steady_lasts _).of_course course)

/-- What is known of an activation is known of every one that it starts. -/
theorem stands_of_starts (stands : running.Stands dispatcher)
    (starts : running.Starts dispatcher called) :
    called.Stands dispatcher ∧ Chosen dispatcher.hierarchy running called ∧
      running.start.Lasts called.start := by
  obtain ⟨request, next, reaches, asks⟩ := starts.asked
  have lasts := reaches.lasts flat
  cases asks with
  | invoke resolved =>
      obtain ⟨calledStands, same, provides⟩ := starts.entered.stands_of_exact flat resolved
      rw [← same] at provides
      exact ⟨calledStands, .inl provides, lasts⟩
  | super sameReceiver inherited =>
      obtain ⟨declaring, parent, declaringFound, inherits, resolved⟩ :=
        Hierarchy.parent_of_inheritedMethod inherited
      cases Option.some.inj (declaringFound.symm.trans stands.entered.ownerFound)
      obtain ⟨before, after, chained⟩ := stands.above
      obtain ⟨upper, rest, upperFound, shape⟩ := chained.eq_cons_of_parent inherits
      have sameExact := stands.entered.exact_eq flat lasts starts.entered sameReceiver
      have above : dispatcher.hierarchy.classes.Chain called.exact
          ((before ++ [running.owner]) ++ upper :: rest) := by
        rw [sameExact, List.append_assoc, List.singleton_append, ← shape]
        exact chained
      obtain ⟨calledStands, same, provides⟩ :=
        starts.entered.stands flat above upperFound resolved
      rw [← same] at provides
      exact ⟨calledStands,
        .inr ⟨sameReceiver, sameExact, parent, upper, inherits, upperFound, provides⟩, lasts⟩

/-- What the host starts and all that is started from there stands, on stores that only
grow. -/
theorem stands_of_reached (stands : running.Stands dispatcher)
    (reached : ReflTransGen (Starts dispatcher) running called) :
    called.Stands dispatcher ∧ running.start.Lasts called.start := by
  induction reached with
  | refl => exact ⟨stands, running.start.lasts_refl⟩
  | tail _ starts ih =>
      obtain ⟨standsHere, lasts⟩ := ih
      obtain ⟨calledStands, _, lastsOn⟩ := stands_of_starts flat standsHere starts
      exact ⟨calledStands, lasts.trans lastsOn⟩

end Standing

end Activation

end Lineage
