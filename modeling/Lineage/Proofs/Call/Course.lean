import Lineage.Proofs.Call.Parametric

/-!
# The course of a call

What a call does to its store are single writes, allocations and reports of dispatches,
one after another (`Course`).  `through_invoke` and its siblings say so of all that a
dispatcher can do, whether it succeeds or fails, with bodies of both kinds.  A relation
between stores that writes and allocations keep (`Steady`) then holds between the first
store of a course and its last (`of_course`).
-/

set_option autoImplicit false

namespace Lineage

/-- Steps from the store on, through the classes of one table, with what they report. -/
inductive Store.Course (classes : ClassTable) (start : Store) : List Event → Store → Prop where
  | stay : Course classes start [] start
  | write {events : List Event} {reached changed : Store} {id : InstanceNo} {field : String}
      {value : Value} (before : Course classes start events reached)
      (run : reached.write classes id field value = .ok changed) :
      Course classes start events changed
  | allocate {events : List Event} {reached : Store} {name : String} {cls : Class}
      (before : Course classes start events reached) (known : classes.lookup name = .ok cls)
      (domain : Domain) :
      Course classes start (events ++ [.allocated reached.next cls.name domain])
        (reached.allocate cls domain)
  | report {events : List Event} {reached : Store} (before : Course classes start events reached)
      (level : Level) (receiver : InstanceNo) (cls : String) (method : Signature)
      (owner : String) (depth : Nat) :
      Course classes start (events ++ [.dispatched level receiver cls method owner depth]) reached

variable {classes : ClassTable}

theorem Store.Course.trans {first second third : Store} {events later : List Event}
    (before : first.Course classes events second) (after : second.Course classes later third) :
    first.Course classes (events ++ later) third := by
  induction after with
  | stay =>
      rw [List.append_nil]
      exact before
  | write _ run ih => exact ih.write run
  | allocate _ known domain ih =>
      rw [← List.append_assoc]
      exact ih.allocate known domain
  | report _ level receiver cls method owner depth ih =>
      rw [← List.append_assoc]
      exact ih.report level receiver cls method owner depth

/-! ## Actions -/

namespace Action

/-- Whatever store the action runs on, what it does is a course through the table. -/
def Through (classes : ClassTable) {α : Type} (action : Action α) : Prop :=
  ∀ store : Store, store.Course classes (action store).events (action store).store

variable {α β : Type}

theorem through_lift (outcome : Outcome α) : (lift outcome).Through classes :=
  fun _ => .stay

theorem through_query (ask : Store → Outcome α) : (query ask).Through classes :=
  fun _ => .stay

theorem Through.bind {action : Action α} {next : α → Action β} (first : action.Through classes)
    (rest : ∀ value, (next value).Through classes) : (action >>= next).Through classes := by
  intro store
  have reached := first store
  rcases run : action store with ⟨failure | value, after, events⟩
  · rw [run] at reached
    rw [run_bind_of_error run]
    exact reached
  · rw [run] at reached
    rw [run_bind_of_ok run]
    exact reached.trans (rest value after)

theorem Through.attempt {action : Action α} (first : action.Through classes) :
    (Action.attempt action).Through classes := by
  intro store
  have reached := first store
  rcases run : action store with ⟨(cause | _) | value, after, events⟩ <;>
    simpa only [Action.attempt, run] using reached

theorem through_write (id : InstanceNo) (field : String) (value : Value) :
    (update fun store => store.write classes id field value).Through classes := by
  intro store
  unfold update
  cases written : store.write classes id field value with
  | error failure =>
      simp only [written]
      exact .stay
  | ok changed =>
      simp only [written]
      exact .write .stay written

theorem through_allocateNamed (cls : String) (domain : Domain) :
    (allocateNamed classes cls domain).Through classes := by
  intro store
  unfold allocateNamed
  cases known : classes.lookup cls with
  | error failure =>
      rw [lift_error_bind]
      exact .stay
  | ok found =>
      rw [lift_ok_bind]
      exact .allocate .stay known domain

end Action

namespace Dispatcher

variable (dispatcher : Dispatcher) {decls : List ClassDecl}

theorem through_classOf (target : InstanceNo) :
    (dispatcher.classOf target).Through dispatcher.hierarchy.classes :=
  (Action.through_query _).bind fun _ =>
    (Action.through_lift _).bind fun _ => Action.through_lift (.ok _)

theorem parametric_through :
    Parametric (fun _ action _ => action.Through dispatcher.hierarchy.classes) dispatcher where
  weaken _ through := through
  lift := Action.through_lift
  bind := Action.Through.bind
  attempt := Action.Through.attempt
  report _ _ _ _ _ _ _ := .report .stay _ _ _ _ _ _
  classOf id _ _ rest := (dispatcher.through_classOf id).bind rest
  domain _ := Action.through_query _
  read _ _ := Action.through_query _
  write := Action.through_write
  allocate := Action.through_allocateNamed

theorem through_exactReference (target : InstanceNo) :
    (dispatcher.exactReference target).Through dispatcher.hierarchy.classes :=
  rel_exactReference dispatcher.parametric_through.lockstep target

theorem through_reference (target : InstanceNo) (staticType : String) :
    (dispatcher.reference target staticType).Through dispatcher.hierarchy.classes :=
  rel_reference dispatcher.parametric_through target staticType

variable {dispatcher} (flat : dispatcher.hierarchy.Flat decls)
include flat

theorem through_run (remaining : Nat) (receiver : InstanceNo) (cls : ClassId) {method : Method}
    (has : dispatcher.hierarchy.Has method) (args : List Value) :
    (dispatcher.run remaining receiver cls method args).Through dispatcher.hierarchy.classes :=
  rel_run dispatcher.parametric_through.lockstep flat remaining receiver cls has args

/-- Every step of a frame whose methods the dispatcher runs is a course. -/
theorem accord_through (remaining : Nat) (frame : Frame) (isOwn : frame.dispatcher = dispatcher)
    (runs : frame.enter = dispatcher.run remaining) :
    Frame.Accord id (fun action _ => action.Through dispatcher.hierarchy.classes) frame
      (frame.beside id dispatcher frame.enter) := by
  subst isOwn
  have enters : Enters id (fun _ action _ => action.Through frame.dispatcher.hierarchy.classes)
      frame.dispatcher.hierarchy frame.enter frame.enter := by
    intro receiver cls method args has _
    rw [runs]
    exact through_run flat remaining receiver cls has args
  exact @Frame.accord id _ decls frame frame.dispatcher frame.enter
    frame.dispatcher.parametric_through.lockstep flat enters

/-- A call of the host, also one that fails midway. -/
theorem through_invoke (reference : Reference) (signature : Signature) (args : List Value) :
    (dispatcher.invoke reference signature args).Through dispatcher.hierarchy.classes :=
  rel_invoke dispatcher.parametric_through.lockstep flat reference signature args

theorem through_send (target : InstanceNo) (method : String) (args : List Value) :
    (dispatcher.send target method args).Through dispatcher.hierarchy.classes :=
  rel_send dispatcher.parametric_through.lockstep flat target method args

end Dispatcher

/-! ## Stores before and after -/

/-- A relation from stores to later ones that writes and allocations keep. -/
structure Steady (R : Store → Store → Prop) (classes : ClassTable) : Prop where
  refl : ∀ store, R store store
  trans : ∀ {first second third}, R first second → R second third → R first third
  write : ∀ {store changed id field value},
    store.write classes id field value = .ok changed → R store changed
  allocate : ∀ store {name cls} domain, classes.lookup name = .ok cls →
    R store (store.allocate cls domain)

theorem Steady.of_course {R : Store → Store → Prop} (steady : Steady R classes)
    {before after : Store} {events : List Event} (course : before.Course classes events after) :
    R before after := by
  induction course with
  | stay => exact steady.refl before
  | write _ run ih => exact steady.trans ih (steady.write run)
  | allocate _ known domain ih => exact steady.trans ih (steady.allocate _ domain known)
  | report _ _ _ _ _ _ _ ih => exact ih

end Lineage
