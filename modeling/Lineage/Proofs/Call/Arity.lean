import Lineage.Proofs.Call.Gate
import Lineage.Proofs.Call.Parametric

/-!
# As many arguments as declared

Who starts a method within a call looks it up under the number of arguments that it
hands over, so the method declares that many.  To say so of all frames of a call, a
guard is put in front of every method that a running one starts: those that are given
another number of arguments are left to an intruder, of which nothing is known.  The
guard changes no call (`run_eq_runGuarded`), so no frame below the first is started
with a wrong number.  The first frame is the host's: there the same holds if the host
names the signature by its arguments (`call`), but a host that names signature and
arguments apart (`invoke`) may hand over any number (`link_runs_with_two_arguments`).
-/

set_option autoImplicit false

namespace Lineage

/-- Methods that are not given as many arguments as they declare are left to the
intruder. -/
def Enter.guarded (enter intruder : Enter) : Enter := fun receiver cls method args =>
  if args.length = method.signature.arity then enter receiver cls method args
  else intruder receiver cls method args

theorem Enter.enters_guarded {enter other : Enter} (same : enter = other) (intruder : Enter)
    (hierarchy : Hierarchy) :
    Enters id (fun _ => Eq) hierarchy enter (other.guarded intruder) := by
  intro receiver cls method args _ sameCount
  rw [Method.mapMarks_id, guarded, if_pos sameCount, same]

/-- To be the same action is kept by all sequencing. -/
theorem parametric_eq (dispatcher : Dispatcher) : Parametric (fun _ => Eq) dispatcher where
  weaken _ same := same
  lift _ := rfl
  bind same rest := by rw [same, funext rest]
  attempt same := by rw [same]
  report _ _ _ _ _ _ := rfl
  classOf _ _ _ rest := by rw [funext rest]
  domain _ := rfl
  read _ _ := rfl
  write _ _ _ := rfl
  allocate _ _ := rfl

namespace Dispatcher

variable {dispatcher : Dispatcher} {decls : List ClassDecl}

/-- One level of nesting: the method is announced, and its body runs in a frame that
starts further methods by `enter`. -/
def level (dispatcher : Dispatcher) (remaining : Nat) (enter : Enter) : Enter :=
  fun receiver id method args => do
    let classes := dispatcher.hierarchy.classes
    let cls ← Action.lift (classes.classAt id)
    let owner ← Action.lift (classes.classAt method.owner)
    Action.emit (.dispatched dispatcher.dispatchLevel receiver cls.name method.signature
      owner.name (dispatcher.options.maxCallDepth - (remaining + 1)))
    ((dispatcher.frameAt remaining receiver method).withEnter enter).runBody owner.name args

theorem run_succ (dispatcher : Dispatcher) (remaining : Nat) :
    dispatcher.run (remaining + 1) = dispatcher.level remaining (dispatcher.run remaining) := rfl

/-- Runs methods like `run`, with the guard in front of each one that a running method
starts. -/
def runGuarded (dispatcher : Dispatcher) (intruder : Enter) : (remaining : Nat) → Enter
  | 0 => dispatcher.run 0
  | remaining + 1 =>
      dispatcher.level remaining ((dispatcher.runGuarded intruder remaining).guarded intruder)

/-- What a level does is settled by the methods that are given as many arguments as
they declare. -/
theorem level_congr (flat : dispatcher.hierarchy.Flat decls) (remaining : Nat)
    {enter other : Enter} (enters : Enters id (fun _ => Eq) dispatcher.hierarchy enter other) :
    dispatcher.level remaining enter = dispatcher.level remaining other := by
  funext receiver cls method args
  refine bind_congr fun cls => bind_congr fun owner => bind_congr fun _ => ?_
  let frame := (dispatcher.frameAt remaining receiver method).withEnter enter
  have same := @Frame.rel_runBody id (fun _ => Eq) decls frame frame.dispatcher other
    (parametric_eq dispatcher).lockstep flat enters args (.inr (parametric_eq dispatcher).asks)
    owner.name
  rw [Frame.beside_id] at same
  exact same

/-- The guard is never used, however deep the calls are nested. -/
theorem run_eq_runGuarded (flat : dispatcher.hierarchy.Flat decls) (intruder : Enter)
    (remaining : Nat) : dispatcher.run remaining = dispatcher.runGuarded intruder remaining := by
  induction remaining with
  | zero => rfl
  | succ remaining ih =>
      -- The frames further down pass the guard by `ih`; this level adds its own.
      rw [run_succ, runGuarded]
      exact level_congr flat remaining (Enter.enters_guarded ih intruder _)

def runHostGuarded (dispatcher : Dispatcher) (intruder : Enter) : Enter :=
  dispatcher.runGuarded intruder dispatcher.options.maxCallDepth

/-- A call of the host whose first method is started by `enter`. -/
def invokeBy (dispatcher : Dispatcher) (enter : Enter) (reference : Reference)
    (signature : Signature) (args : List Value) : Action Value := do
  Action.lift (dispatcher.hierarchy.permits reference.staticType signature)
  dispatcher.dispatch enter reference.target signature args

/-- All frames of a call but the first pass the guard. -/
theorem invoke_eq_invokeBy (flat : dispatcher.hierarchy.Flat decls) (intruder : Enter)
    (reference : Reference) (signature : Signature) (args : List Value) :
    dispatcher.invoke reference signature args =
      dispatcher.invokeBy (dispatcher.runHostGuarded intruder) reference signature args := by
  rw [invoke_eq, runHost, run_eq_runGuarded flat intruder]
  rfl

/-- The first frame passes it as well if the signature counts the arguments. -/
theorem invokeBy_eq_guarded (flat : dispatcher.hierarchy.Flat decls) (enter intruder : Enter)
    (reference : Reference) {signature : Signature} {args : List Value}
    (sameCount : args.length = signature.arity) :
    dispatcher.invokeBy enter reference signature args =
      dispatcher.invokeBy (enter.guarded intruder) reference signature args := by
  refine bind_congr fun _ => ?_
  exact rel_dispatch (parametric_eq dispatcher).lockstep flat
    (Enter.enters_guarded rfl intruder _) reference.target signature args sameCount

/-- A method is not found under a number of arguments that no class above declares. -/
theorem dispatch_of_lacks (flat : dispatcher.hierarchy.Flat decls) (enter : Enter)
    {target : InstanceNo} {store : Store} {inst : Instance} (live : store.find? target = some inst)
    {cls : Class} {signature : Signature}
    (lacks : dispatcher.hierarchy.Lacks inst.cls cls signature) (args : List Value) :
    dispatcher.dispatch enter target signature args store =
      ⟨refuse (.noSuchMethod cls.name signature), store, []⟩ := by
  rw [dispatch_of_live enter signature args live lacks.found,
    flat.holds.id_of_find? lacks.found, flat.resolve_of_lacks lacks]
  rfl

end Dispatcher

/-- Nor is it inherited. -/
theorem Frame.invokeSuper_of_lacks {frame : Frame} {decls : List ClassDecl}
    (flat : frame.dispatcher.hierarchy.Flat decls) {declaring upper : Class} {parent : ClassId}
    (isDeclaring : frame.dispatcher.hierarchy.classes.find? frame.method.owner = some declaring)
    (inherits : declaring.parent = some parent) {name : String} {args : List Value}
    (lacks : frame.dispatcher.hierarchy.Lacks parent upper ⟨name, args.length⟩) (store : Store) :
    frame.invokeSuper name args store =
      ⟨refuse (.noSuchMethod upper.name ⟨name, args.length⟩), store, []⟩ := by
  have nothing : frame.dispatcher.hierarchy.inheritedMethod frame.method.owner
      ⟨name, args.length⟩ = refuse (.noSuchMethod upper.name ⟨name, args.length⟩) := by
    unfold Hierarchy.inheritedMethod
    rw [ClassTable.classAt_of_find? isDeclaring]
    simp only [bind, Except.bind, inherits]
    exact flat.resolve_of_lacks lacks
  rw [Frame.invokeSuper_eq, nothing]
  rfl

namespace Dispatcher

/-- Every frame that a running method starts is given as many arguments as its method
declares, and so is the first frame if the host's signature counts them.  Under a number
of arguments that is not declared no method runs: not for a host that calls by name, not
for a nested call and not for one that goes to the parent. -/
theorem invoke_counted (dispatcher : Dispatcher) (isSealed : dispatcher.hierarchy.Sealed)
    (intruder : Enter) (reference : Reference) (args : List Value) :
    (∀ signature, dispatcher.invoke reference signature args =
      dispatcher.invokeBy (dispatcher.runHostGuarded intruder) reference signature args) ∧
    (∀ signature, args.length = signature.arity →
      dispatcher.invoke reference signature args =
        dispatcher.invokeBy ((dispatcher.runHostGuarded intruder).guarded intruder)
          reference signature args) ∧
    (∀ name, dispatcher.call reference name args =
      dispatcher.invokeBy ((dispatcher.runHostGuarded intruder).guarded intruder)
        reference ⟨name, args.length⟩ args) ∧
    (∀ name cls store, dispatcher.hierarchy.Lacks reference.staticType cls ⟨name, args.length⟩ →
      dispatcher.call reference name args store =
        ⟨refuse (.noSuchMethod cls.name ⟨name, args.length⟩), store, []⟩) ∧
    (∀ (frame : Frame) target name cls (store : Store) inst, frame.dispatcher = dispatcher →
      store.find? target = some inst →
      dispatcher.hierarchy.Lacks inst.cls cls ⟨name, args.length⟩ →
      frame.invoke target name args store =
        ⟨refuse (.noSuchMethod cls.name ⟨name, args.length⟩), store, []⟩) ∧
    (∀ (frame : Frame) name declaring parent cls store, frame.dispatcher = dispatcher →
      dispatcher.hierarchy.classes.find? frame.method.owner = some declaring →
      declaring.parent = some parent →
      dispatcher.hierarchy.Lacks parent cls ⟨name, args.length⟩ →
      frame.invokeSuper name args store =
        ⟨refuse (.noSuchMethod cls.name ⟨name, args.length⟩), store, []⟩) := by
  obtain ⟨decls, flat⟩ := isSealed.exists_flat
  have counted : ∀ signature : Signature, args.length = signature.arity →
      dispatcher.invoke reference signature args =
        dispatcher.invokeBy ((dispatcher.runHostGuarded intruder).guarded intruder)
          reference signature args := by
    intro signature sameCount
    rw [invoke_eq_invokeBy flat intruder reference signature args]
    exact invokeBy_eq_guarded flat _ intruder reference sameCount
  refine ⟨?_, counted, ?_, ?_, ?_, ?_⟩
  · intro signature
    exact invoke_eq_invokeBy flat intruder reference signature args
  · intro name
    exact counted ⟨name, args.length⟩ rfl
  · intro name cls store lacks
    exact invoke_of_lacks flat args lacks
  · rintro frame target name cls store inst rfl live lacks
    exact dispatch_of_lacks flat frame.enter live lacks args
  · rintro frame name declaring parent cls store rfl isDeclaring inherits lacks
    exact Frame.invokeSuper_of_lacks flat isDeclaring inherits lacks store

/-- A node links to one other; told to link to two, it does not understand. -/
theorem link_counted :
    sampleHierarchy.Sealed ∧
    Dispatcher.call ⟨sampleHierarchy, {}⟩ ⟨3, ⟨1, 1⟩⟩ "link" [.object 1] =
      Dispatcher.invokeBy ⟨sampleHierarchy, {}⟩
        ((runHostGuarded ⟨sampleHierarchy, {}⟩ fun _ _ _ _ => pure .nil).guarded
          fun _ _ _ _ => pure .nil)
        ⟨3, ⟨1, 1⟩⟩ ⟨"link", 1⟩ [.object 1] ∧
    ∃ node, sampleHierarchy.Lacks ⟨1, 0⟩ node ⟨"link", 2⟩ ∧
      Dispatcher.call ⟨sampleHierarchy, {}⟩ ⟨3, ⟨1, 0⟩⟩ "link" [.object 1, .object 2] sampleStore =
        ⟨refuse (.noSuchMethod "Node" ⟨"link", 2⟩), sampleStore, []⟩ := by
  have lacks : sampleHierarchy.Lacks ⟨1, 0⟩ _ ⟨"link", 2⟩ :=
    ⟨rfl, _, .root rfl, List.forall_mem_singleton.mpr (by decide)⟩
  refine ⟨sampleHierarchy_sealed, ?_, _, lacks, ?_⟩
  · exact (invoke_counted ⟨sampleHierarchy, {}⟩ sampleHierarchy_sealed _ ⟨3, ⟨1, 1⟩⟩
      [.object 1]).2.2.1 "link"
  · exact (invoke_counted ⟨sampleHierarchy, {}⟩ sampleHierarchy_sealed (fun _ _ _ _ => pure .nil)
      ⟨3, ⟨1, 0⟩⟩ [.object 1, .object 2]).2.2.2.1 "link" _ sampleStore lacks

/-- A host that names the signature apart from the arguments is not stopped: a method
declared for one argument runs to its end with two. -/
theorem link_runs_with_two_arguments :
    Dispatcher.invoke ⟨sampleHierarchy, {}⟩ ⟨1, ⟨1, 0⟩⟩ ⟨"link", 1⟩ [.str "first", .str "second"]
        sampleStore =
      ⟨.ok (.str "first"), sampleStore.put 1 (some ⟨⟨1, 0⟩, .managed, [.str "first", .str "node"]⟩),
        [.dispatched .trace 1 "Node" ⟨"link", 1⟩ "Node" 0]⟩ := rfl

end Dispatcher

end Lineage
