import Lineage.Proofs.Call.Course
import Lineage.Proofs.Call.Entry

/-!
# The limit on nesting

Two limits on the nesting of calls, and one call under each.  As long as no method starts
at the depth of the smaller limit, the two runs are the same.  The first method that
would start there ends the shorter run: what the longer one has done until then is all that
is done (`Cut`).  Bodies are expressions here, so nothing catches the fault: sequencing
keeps the relation (`Cut.bind`), `cut_run` is the induction on the levels that are left
below the smaller limit, and `limit_cuts_off` the result for calls of the host.
-/

set_option autoImplicit false

namespace Lineage

namespace Event

/-- The depth of the method whose start is reported. -/
def depth? : Event → Option Nat
  | .dispatched _ _ _ _ _ depth => some depth
  | _ => none

/-- No method is reported to start at the limit or deeper. -/
def Shallow (limit : Nat) (event : Event) : Prop :=
  ∀ depth, event.depth? = some depth → depth < limit

theorem shallow_of_none {event : Event} (noDepth : event.depth? = none) (limit : Nat) :
    event.Shallow limit := by
  intro depth isDepth
  rw [noDepth] at isDepth
  cases isDepth

end Event

variable {classes : ClassTable} {limit : Nat} {α β : Type}

/-- The second effect is the first one, in which nothing starts at the limit, or goes on
from where the first one was cut off: from the first event at the limit. -/
inductive Effect.Cut (classes : ClassTable) (limit : Nat) : Effect α → Effect α → Prop where
  | same {effect : Effect α} (shallow : ∀ event ∈ effect.events, event.Shallow limit) :
      Cut classes limit effect effect
  | cut {short long : Effect α} (failed : short.result = refuse (.callDepthExceeded limit))
      (shallow : ∀ event ∈ short.events, event.Shallow limit) {event : Event}
      {rest : List Event} (goesOn : long.events = short.events ++ event :: rest)
      (deep : event.depth? = some limit)
      (course : short.store.Course classes (event :: rest) long.store) :
      Cut classes limit short long

namespace Action

/-- On every store the first action is the second one, cut off at the limit. -/
structure Cut (classes : ClassTable) (limit : Nat) (short long : Action α) : Prop where
  through : long.Through classes
  effects : ∀ store, (short store).Cut classes limit (long store)

theorem cut_self {action : Action α} (through : action.Through classes)
    (noDepth : ∀ store, ∀ event ∈ (action store).events, event.depth? = none) :
    Cut classes limit action action where
  through := through
  effects store := .same fun event isEvent =>
    Event.shallow_of_none (noDepth store event isEvent) limit

theorem Cut.bind {short long : Action α} {next after : α → Action β}
    (first : Cut classes limit short long)
    (rest : ∀ value, Cut classes limit (next value) (after value)) :
    Cut classes limit (short >>= next) (long >>= after) where
  through := first.through.bind fun value => (rest value).through
  effects store := by
    rcases run : short store with ⟨failure | value, reached, events⟩
    · rw [run_bind_of_error run]
      have related := first.effects store
      rw [run] at related
      generalize longRun : long store = effect at related
      cases related with
      | same shallow =>
          rw [run_bind_of_error longRun]
          exact .same shallow
      | cut failed shallow goesOn deep course =>
          obtain ⟨_ | value, longReached, longEvents⟩ := effect
          · rw [run_bind_of_error longRun]
            exact .cut (Except.error.inj failed ▸ rfl) shallow goesOn deep course
          · -- The longer run goes on with a value that the shorter one never has.
            rw [run_bind_of_ok longRun]
            dsimp only at goesOn course
            have onwards := course.trans ((rest value).through longReached)
            rw [List.cons_append] at onwards
            refine .cut (Except.error.inj failed ▸ rfl) shallow ?_ deep onwards
            simp only [goesOn, List.append_assoc, List.cons_append]
    · have related := first.effects store
      rw [run] at related
      generalize longRun : long store = effect at related
      cases related with
      | cut failed => cases failed
      | same shallow =>
          rw [run_bind_of_ok run, run_bind_of_ok longRun]
          have tail := (rest value).effects reached
          generalize next value reached = shortTail at tail
          generalize after value reached = longTail at tail
          cases tail with
          | same tailShallow =>
              exact .same (List.forall_mem_append.mpr ⟨shallow, tailShallow⟩)
          | cut failed tailShallow goesOn deep course =>
              refine .cut failed (List.forall_mem_append.mpr ⟨shallow, tailShallow⟩) ?_ deep
                course
              simp only [goesOn, List.append_assoc]

theorem cut_query (ask : Store → Outcome α) :
    Cut classes limit (query ask) (query ask) :=
  cut_self (through_query ask) fun _ _ nothing => by simp at nothing

theorem cut_lift (outcome : Outcome α) : Cut classes limit (lift outcome) (lift outcome) :=
  cut_self (through_lift outcome) fun _ _ nothing => by simp at nothing

theorem cut_write (id : InstanceNo) (field : String) (value : Value) :
    Cut classes limit (update fun store => store.write classes id field value)
      (update fun store => store.write classes id field value) := by
  apply cut_self (through_write id field value)
  intro store event isEvent
  unfold update at isEvent
  cases written : store.write classes id field value <;> simp [written] at isEvent

theorem cut_allocateNamed (cls : String) (domain : Domain) :
    Cut classes limit (allocateNamed classes cls domain) (allocateNamed classes cls domain) := by
  apply cut_self (through_allocateNamed cls domain)
  intro store event isEvent
  unfold allocateNamed at isEvent
  cases known : classes.lookup cls with
  | error failure =>
      rw [known] at isEvent
      cases isEvent
  | ok found =>
      rw [known, lift_ok_bind] at isEvent
      rw [List.mem_singleton.mp isEvent]
      rfl

/-- The report of a start above the limit. -/
theorem cut_emit {event : Event} (shallow : event.Shallow limit)
    (through : (emit event).Through classes) :
    Cut classes limit (emit event) (emit event) where
  through := through
  effects _ := .same (List.forall_mem_singleton.mpr shallow)

end Action

namespace Dispatcher

variable {hierarchy : Hierarchy} {decls : List ClassDecl} (options : Options)

theorem cut_allocateFor (receiver : InstanceNo) (cls : String) (domain : Option Domain) :
    Action.Cut hierarchy.classes limit (allocateFor ⟨hierarchy, options⟩ receiver cls domain)
      (allocateFor ⟨hierarchy, options⟩ receiver cls domain) := by
  cases domain with
  | some domain => exact Action.cut_allocateNamed cls domain
  | none => exact (Action.cut_query _).bind fun domain => Action.cut_allocateNamed cls domain

end Dispatcher

/-- Two ways to run methods, the first of which is the second, cut off at the limit. -/
def Enter.Cut (hierarchy : Hierarchy) (limit : Nat) (enter other : Enter) : Prop :=
  ∀ store receiver exact owner method args, hierarchy.Starts store receiver exact owner method →
    Action.Cut hierarchy.classes limit (enter receiver exact.id method args)
      (other receiver exact.id method args)

section Runs
variable {hierarchy : Hierarchy} {decls : List ClassDecl} (flat : hierarchy.Flat decls)

theorem Hierarchy.Entry.cut {receiver : InstanceNo} {args : List Value}
    {begin : Options → Enter → Action Value}
    (entry : ∀ store, hierarchy.Entry store receiver args begin) {enter other : Enter}
    (enters : Enter.Cut hierarchy limit enter other) (options more : Options) :
    Action.Cut hierarchy.classes limit (begin options enter) (begin more other) where
  through store := by
    apply (entry store).holds fun effect =>
      store.Course hierarchy.classes effect.events effect.store
    · intro cause
      exact .stay
    · intro exact owner method starts
      exact (enters store receiver exact owner method args starts).through store
  effects store := by
    apply (entry store).rel (Effect.Cut hierarchy.classes limit)
    · intro cause
      exact .same (List.forall_mem_nil _)
    · intro exact owner method starts
      exact (enters store receiver exact owner method args starts).effects store

variable (plain : hierarchy.Plain) {short long : Options}
include flat

/-- Bodies that start their methods in two such ways are related as the ways are. -/
theorem Frame.accord_cut {enter other : Enter} (enters : Enter.Cut hierarchy limit enter other)
    {receiver : InstanceNo} {method : Method} {depth : Nat} {declaring : Class}
    (found : hierarchy.classes.find? method.owner = some declaring) :
    Frame.Accord id (fun {_} => Action.Cut hierarchy.classes limit)
      ⟨⟨hierarchy, short⟩, enter, receiver, method, depth⟩
      ⟨⟨hierarchy, long⟩, other, receiver, method, depth⟩ where
  receiver := rfl
  signature := rfl
  lift _ := Action.cut_lift _
  bind := Action.Cut.bind
  read _ _ := Action.cut_query _
  write := Action.cut_write
  allocate cls domain := by
    rw [Frame.allocate_eq, Frame.allocate_eq]
    exact Dispatcher.cut_allocateFor short receiver cls domain
  invoke target name args :=
    Hierarchy.Entry.cut (flat.entry_dispatch target ⟨name, args.length⟩ args) enters short long
  invokeSuper name args :=
    Hierarchy.Entry.cut (flat.entry_super found receiver depth name args) enters short long

include plain

/-- With as many levels left below each limit, and the rest of the larger one beside. -/
theorem Dispatcher.cut_run (traceCalls : Bool) (extra remaining : Nat)
    (below : remaining ≤ limit) :
    Enter.Cut hierarchy limit (Dispatcher.run ⟨hierarchy, ⟨limit, traceCalls⟩⟩ remaining)
      (Dispatcher.run ⟨hierarchy, ⟨limit + (extra + 1), traceCalls⟩⟩
        (remaining + (extra + 1))) := by
  induction remaining with
  | zero =>
      intro store receiver exact owner method args starts
      rw [Nat.zero_add]
      have through := @through_run ⟨hierarchy, ⟨limit + (extra + 1), traceCalls⟩⟩ decls flat
        (extra + 1) receiver exact.id method starts.has args
      refine ⟨through, fun store => ?_⟩
      -- The shorter run ends before the report that the longer one begins with.
      have course := through store
      rw [run_of_starts starts] at course ⊢
      refine .cut rfl (List.forall_mem_nil _) rfl ?_ course
      exact congrArg some (Nat.add_sub_cancel limit (extra + 1))
  | succ remaining ih =>
      intro store receiver exact owner method args starts
      obtain ⟨id, resolved⟩ := starts.has
      have isExpr := flat.isExpr_of_resolve plain resolved
      have sameDepth : limit + (extra + 1) - (remaining + (extra + 1) + 1) =
          limit - (remaining + 1) := by omega
      rw [Nat.add_right_comm, run_of_starts starts, run_of_starts starts]
      simp only [frameAt, dispatchLevel, sameDepth]
      have shallow : ∀ level, (Event.dispatched level receiver exact.name method.signature
          owner.name (limit - (remaining + 1))).Shallow limit := by
        intro level depth isDepth
        cases isDepth
        omega
      apply (Action.cut_emit (shallow _) fun _ => .report .stay _ _ _ _ _ _).bind
      intro _
      have found : hierarchy.classes.find? method.owner = some owner := by
        rw [starts.owned, starts.ownerFound]
      apply (Frame.accord_cut flat (ih (by omega)) found).runBody args
      · exact (Body.mapMarks_id _).symm
      · exact .inl isExpr

theorem Dispatcher.cut_invoke (traceCalls : Bool) {limit larger : Nat} (smaller : limit < larger)
    (reference : Reference) (signature : Signature) (args : List Value) :
    Action.Cut hierarchy.classes limit
      (Dispatcher.invoke ⟨hierarchy, ⟨limit, traceCalls⟩⟩ reference signature args)
      (Dispatcher.invoke ⟨hierarchy, ⟨larger, traceCalls⟩⟩ reference signature args) := by
  obtain ⟨extra, rfl⟩ := Nat.exists_eq_add_of_lt smaller
  rw [invoke_eq_invokeBy_runHost, invoke_eq_invokeBy_runHost]
  exact Hierarchy.Entry.cut (flat.entry_invokeBy reference signature args)
    (cut_run flat plain traceCalls extra limit (Nat.le_refl limit)) _ _

end Runs

namespace Dispatcher

/-- The limit on nesting is nothing but a cut.  If under the larger limit no method starts
at the smaller one or deeper, both runs are the same, whatever they end with.  Otherwise the
shorter run fails, with the events that the longer one emits before its first start at the
smaller limit, and the longer run goes on from there.  So an outcome other than this failure
is that of every larger limit. -/
theorem limit_cuts_off {hierarchy : Hierarchy} (isSealed : hierarchy.Sealed)
    (plain : hierarchy.Plain) (traceCalls : Bool) {limit larger : Nat} (smaller : limit < larger)
    (reference : Reference) (signature : Signature) (args : List Value) (store : Store) :
    let short := Dispatcher.invoke ⟨hierarchy, ⟨limit, traceCalls⟩⟩ reference signature args store
    let long := Dispatcher.invoke ⟨hierarchy, ⟨larger, traceCalls⟩⟩ reference signature args store
    ((∀ event ∈ long.events, event.Shallow limit) → short = long) ∧
    ((∃ event ∈ long.events, ¬ event.Shallow limit) →
      short.result = refuse (.callDepthExceeded limit) ∧
      (∀ event ∈ short.events, event.Shallow limit) ∧
      ∃ event rest, long.events = short.events ++ event :: rest ∧ event.depth? = some limit ∧
        short.store.Course hierarchy.classes (event :: rest) long.store) ∧
    (short.result ≠ refuse (.callDepthExceeded limit) → short = long) := by
  obtain ⟨decls, flat⟩ := isSealed.exists_flat
  have related := (cut_invoke flat plain traceCalls smaller reference signature args).effects store
  intro short long
  change short.Cut hierarchy.classes limit long at related
  generalize short = first at related
  generalize long = second at related
  cases related with
  | same shallow =>
      refine ⟨fun _ => rfl, ?_, fun _ => rfl⟩
      intro ⟨event, isEvent, deep⟩
      exact absurd (shallow event isEvent) deep
  | @cut _ failed shallow event rest goesOn deep course =>
      refine ⟨?_, fun _ => ⟨failed, shallow, event, rest, goesOn, deep, course⟩, ?_⟩
      · intro allShallow
        have isEvent : event ∈ second.events := by simp [goesOn]
        exact absurd (allShallow event isEvent limit deep) (Nat.lt_irrefl limit)
      · intro otherwise
        exact absurd failed otherwise

/-- A limit of two stops a node that grows a leaf when the leaf goes to its parent; one level
more is as good as any number of them. -/
theorem grow_cut_off :
    sampleHierarchy.Sealed ∧ sampleHierarchy.Plain ∧ 2 < 256 ∧
    let grow := fun limit => Dispatcher.invoke ⟨sampleHierarchy, ⟨limit, false⟩⟩
      ⟨1, ⟨1, 0⟩⟩ ⟨"grow", 0⟩ [] sampleStore
    (grow 2).result = refuse (.callDepthExceeded 2) ∧ grow 3 = grow 256 := by
  have smaller : 2 < 256 := by decide
  refine ⟨sampleHierarchy_sealed, sampleHierarchy_plain, smaller, ?_, ?_⟩
  · have stopped := (limit_cuts_off sampleHierarchy_sealed sampleHierarchy_plain false smaller
      ⟨1, ⟨1, 0⟩⟩ ⟨"grow", 0⟩ [] sampleStore).2.1
    apply (stopped ⟨.dispatched .trace 4 "Leaf" ⟨"link", 1⟩ "Node" 2, by decide, ?_⟩).1
    intro shallow
    exact absurd (shallow 2 rfl) (by decide)
  · refine (limit_cuts_off sampleHierarchy_sealed sampleHierarchy_plain false (by decide)
      ⟨1, ⟨1, 0⟩⟩ ⟨"grow", 0⟩ [] sampleStore).2.2 ?_
    decide

end Dispatcher

end Lineage
