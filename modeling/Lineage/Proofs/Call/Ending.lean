import Lineage.Proofs.Call.Adequacy
import Lineage.Proofs.Call.Forest
import Lineage.Proofs.Call.Unbroken

/-!
# Every call ends

However methods call each other and themselves, a call of the host halts the machine, whose
steps know no bound but the limit of nesting, and gives a value or a fault.  An expression
reports no dispatch itself and passes each of its calls at most once (`reports_eval`), so
the dispatches of a call are bounded by a geometric sum over the levels (`reports_run`).
-/

set_option autoImplicit false

namespace Lineage

namespace Action

variable {α β : Type} {action : Action α} {bound more : Nat}

/-- Whatever store the action runs on, it reports at most so many dispatches. -/
def Reports (bound : Nat) (action : Action α) : Prop :=
  ∀ store, (action store).dispatches.length ≤ bound

theorem reports_lift (outcome : Outcome α) : (lift outcome).Reports bound :=
  fun _ => Nat.zero_le bound

theorem reports_query (ask : Store → Outcome α) : (query ask).Reports bound :=
  fun _ => Nat.zero_le bound

theorem reports_update (change : Store → Outcome Store) : (update change).Reports bound := by
  intro store
  unfold update
  split <;> exact Nat.zero_le bound

theorem reports_allocate (cls : Class) (domain : Domain) : (allocate cls domain).Reports bound :=
  fun _ => Nat.zero_le bound

theorem reports_emit (event : Event) : (emit event).Reports 1 :=
  fun _ => List.length_filterMap_le Event.dispatch? [event]

theorem Reports.mono (reports : action.Reports bound) (le : bound ≤ more) :
    action.Reports more :=
  fun store => Nat.le_trans (reports store) le

theorem Reports.bind {next : α → Action β} (first : action.Reports bound)
    (rest : ∀ value, (next value).Reports more) : (action >>= next).Reports (bound + more) := by
  intro store
  have early := first store
  rcases run : action store with ⟨failure | value, reached, events⟩
  · rw [run] at early
    rw [run_bind_of_error run]
    exact Nat.le_trans early (Nat.le_add_right bound more)
  · rw [run] at early
    have late := rest value reached
    rw [run_bind_of_ok run]
    unfold Effect.dispatches at early late ⊢
    rw [List.filterMap_append, List.length_append]
    exact Nat.add_le_add early late

/-- What reports nothing adds nothing. -/
theorem Reports.before_silent {next : α → Action β} (first : action.Reports bound)
    (rest : ∀ value, (next value).Reports 0) : (action >>= next).Reports bound :=
  first.bind rest

theorem Reports.after_silent {next : α → Action β} (first : action.Reports 0)
    (rest : ∀ value, (next value).Reports bound) : (action >>= next).Reports bound :=
  Nat.zero_add bound ▸ first.bind rest

theorem reports_allocateFor (dispatcher : Dispatcher) (receiver : InstanceNo) (cls : String)
    (domain : Option Domain) : (dispatcher.allocateFor receiver cls domain).Reports bound := by
  have allocates : ∀ domain, (dispatcher.allocate cls domain).Reports bound := by
    intro domain
    apply (reports_lift _).after_silent
    intro found
    exact reports_allocate found domain
  cases domain with
  | some domain => exact allocates domain
  | none =>
      apply (reports_query _).after_silent
      intro domain
      exact allocates domain

theorem reports_objectOf (value : Value) : (Frame.objectOf value).Reports bound := by
  unfold Frame.objectOf
  split <;> exact reports_lift _

theorem reports_classOf (dispatcher : Dispatcher) (target : InstanceNo) :
    (dispatcher.classOf target).Reports bound := by
  apply (reports_query _).after_silent
  intro id
  apply (reports_lift _).after_silent
  intro cls
  exact reports_lift (.ok cls.id)

theorem reports_announce (dispatcher : Dispatcher) (receiver : InstanceNo) (id : ClassId)
    (method : Method) (depth : Nat) : (dispatcher.announce receiver id method depth).Reports 1 := by
  apply (reports_lift _).after_silent
  intro cls
  apply (reports_lift _).after_silent
  intro owner
  exact reports_emit _

end Action

open Action

namespace Frame

variable {frame : Frame} {bound : Nat}
  (invokes : ∀ target name values, (frame.invoke target name values).Reports bound)
  (ascends : ∀ name values, (frame.invokeSuper name values).Reports bound) (args : List Value)
include invokes ascends

set_option linter.unusedSectionVars false

mutual

/-- Each call that occurs is made at most once. -/
theorem reports_eval : (expr : Expr) → (frame.eval args expr).Reports (expr.calls * bound)
  | .lit value => by
      rw [eval]
      exact reports_lift (.ok value.value)
  | .this => by
      rw [eval]
      exact reports_lift (.ok (Value.object frame.receiver))
  | .arg index => by
      rw [eval]
      cases args[index]? with
      | some value => exact reports_lift (.ok value)
      | none => exact reports_lift _
  | .new cls domain => by
      rw [eval, allocate_eq]
      apply (reports_allocateFor frame.dispatcher frame.receiver cls domain).after_silent
      intro id
      exact reports_lift (.ok (Value.object id))
  | .get target field => by
      rw [eval, Expr.calls_get]
      apply (reports_eval target).before_silent
      intro value
      apply (reports_objectOf value).after_silent
      intro object
      exact reports_query _
  | .set target field value => by
      rw [eval, Expr.calls_set, Nat.add_mul]
      apply (reports_eval target).bind
      intro targetValue
      apply (reports_objectOf targetValue).after_silent
      intro object
      apply (reports_eval value).before_silent
      intro stored
      apply (reports_update _).after_silent
      intro _
      exact reports_lift (.ok stored)
  | .invoke target method operands => by
      rw [eval, Expr.calls_invoke, Nat.add_mul, Nat.add_mul, Nat.one_mul, Nat.add_assoc]
      apply (reports_eval target).bind
      intro value
      apply (reports_objectOf value).after_silent
      intro object
      apply (reports_evalAll operands).bind
      intro values
      exact invokes object method values
  | .super method operands => by
      rw [eval, Expr.calls_super, Nat.add_mul, Nat.one_mul]
      apply (reports_evalAll operands).bind
      intro values
      exact ascends method values
  | .seq steps => by
      rw [eval, Expr.calls_seq]
      exact reports_evalLast .nil steps

theorem reports_evalAll : (exprs : List Expr) →
    (frame.evalAll args exprs).Reports (Expr.callsAll exprs * bound)
  | [] => by
      rw [evalAll]
      exact reports_lift (.ok [])
  | expr :: rest => by
      rw [evalAll, Expr.callsAll_cons, Nat.add_mul]
      apply (reports_eval expr).bind
      intro value
      apply (reports_evalAll rest).before_silent
      intro values
      exact reports_lift (.ok (value :: values))

theorem reports_evalLast (last : Value) : (exprs : List Expr) →
    (frame.evalLast args last exprs).Reports (Expr.callsAll exprs * bound)
  | [] => by
      rw [evalLast]
      exact reports_lift (.ok last)
  | expr :: rest => by
      rw [evalLast, Expr.callsAll_cons, Nat.add_mul]
      apply (reports_eval expr).bind
      intro value
      exact reports_evalLast value rest

end

end Frame

namespace Dispatcher

variable {dispatcher : Dispatcher} {decls : List ClassDecl}
  (flat : dispatcher.hierarchy.Flat decls)
include flat

section Entering
variable {bound : Nat} {enter : Enter}
  (enters : ∀ receiver id method args, dispatcher.hierarchy.Has method →
    (enter receiver id method args).Reports bound)
include enters

theorem reports_dispatch (target : InstanceNo) (signature : Signature) (args : List Value) :
    (dispatcher.dispatch enter target signature args).Reports bound := by
  apply (reports_classOf dispatcher target).after_silent
  intro id
  cases resolved : dispatcher.hierarchy.resolve id signature with
  | error failure => exact reports_lift _
  | ok method => exact enters target id method args (flat.has_of_resolve resolved)

theorem reports_invokeSuper (receiver : InstanceNo) (method : Method) (depth : Nat)
    (name : String) (values : List Value) :
    (Frame.invokeSuper ⟨dispatcher, enter, receiver, method, depth⟩ name values).Reports bound := by
  rw [Frame.invokeSuper_eq]
  dsimp only
  cases inherited : dispatcher.hierarchy.inheritedMethod method.owner ⟨name, values.length⟩ with
  | error failure => exact reports_lift _
  | ok called =>
      rw [lift_ok_bind]
      apply (reports_classOf dispatcher receiver).after_silent
      intro id
      exact enters receiver id called values (flat.has_of_inheritedMethod inherited)

end Entering

variable (plain : dispatcher.hierarchy.Plain)
include plain

/-- A method reports itself, and then what the calls of its body report. -/
theorem reports_run (levels : Nat) (receiver : InstanceNo) (id : ClassId) {method : Method}
    (has : dispatcher.hierarchy.Has method) (args : List Value) :
    (dispatcher.run levels receiver id method args).Reports
      (∑ level ∈ Finset.range levels, dispatcher.hierarchy.most Body.calls ^ level) := by
  induction levels generalizing receiver id method args with
  | zero => exact reports_lift _
  | succ levels ih =>
      obtain ⟨body, isBody⟩ := exists_expr_of_isExpr (flat.isExpr_of_has plain has)
      have few := flat.le_most has Body.calls
      rw [isBody] at few
      rw [run_succ_of_expr _ _ _ _ _ _ isBody, geom_sum_succ, Nat.add_comm]
      apply (reports_announce dispatcher receiver id method _).bind
      intro _
      have enters : ∀ receiver id method args, dispatcher.hierarchy.Has method →
          (dispatcher.run levels receiver id method args).Reports
            (∑ level ∈ Finset.range levels, dispatcher.hierarchy.most Body.calls ^ level) :=
        fun receiver id _ args has => ih receiver id has args
      have invokes : ∀ target name values,
          ((dispatcher.frameAt levels receiver method).invoke target name values).Reports _ :=
        fun target name values => reports_dispatch flat enters target ⟨name, values.length⟩ values
      have ascends : ∀ name values,
          ((dispatcher.frameAt levels receiver method).invokeSuper name values).Reports _ :=
        reports_invokeSuper flat enters receiver method _
      exact (Frame.reports_eval invokes ascends args body).mono (Nat.mul_le_mul_right _ few)

theorem reports_invoke (reference : Reference) (signature : Signature) (args : List Value) :
    (dispatcher.invoke reference signature args).Reports
      (∑ level ∈ Finset.range dispatcher.options.maxCallDepth,
        dispatcher.hierarchy.most Body.calls ^ level) := by
  rw [invoke_eq]
  apply (reports_lift _).after_silent
  intro _
  exact reports_dispatch flat (fun receiver id _ args has =>
    reports_run flat plain dispatcher.options.maxCallDepth receiver id has args)
    reference.target signature args

omit flat plain

/-- However methods call each other and themselves, a call of the host gives a value or a
fault, and the machine, which counts no steps, halts with it.  The dispatches that the call
reports are at most one for the method that is called and, level by level below it, as many
times more as there are calls in any one body. -/
theorem invoke_ends {hierarchy : Hierarchy} (isSealed : hierarchy.Sealed)
    (plain : hierarchy.Plain) (options : Options) (reference : Reference)
    (signature : Signature) (args : List Value) (store : Store) :
    let dispatcher : Dispatcher := ⟨hierarchy, options⟩
    let run := dispatcher.invoke reference signature args store
    ((∃ value, run.result = .ok value) ∨ ∃ cause, run.result = refuse cause) ∧
    (Machine.step dispatcher)^[hierarchy.span options.maxCallDepth]
      (Machine.start dispatcher reference signature args store) = .halted run ∧
    run.dispatches.length ≤
      ∑ level ∈ Finset.range options.maxCallDepth, hierarchy.most Body.calls ^ level := by
  intro dispatcher run
  obtain ⟨decls, flat⟩ := isSealed.exists_flat
  refine ⟨?_, Machine.halts_with_invoke flat plain reference signature args store,
    reports_invoke flat plain reference signature args store⟩
  have unbroken := unbroken_invoke flat options reference signature args store
  change Unbroken run.result at unbroken
  rcases ended : run.result with (cause | _) | value
  · exact .inr ⟨cause, rfl⟩
  · exact absurd rfl (unbroken _ ended)
  · exact .inl ⟨value, rfl⟩

end Dispatcher

/-! ## A spinner -/

/-- A method that calls itself. -/
def spinnerDecl : ClassDecl :=
  { name := "Spinner", methods := [⟨"spin", 0, .expr (.invoke .this "spin" [])⟩] }

def spinnerHierarchy : Hierarchy :=
  match Hierarchy.build 1 [spinnerDecl] with
  | .ok hierarchy => hierarchy
  | .error _ => ⟨.empty 1, #[]⟩

/-- A method that calls itself runs once on each level, and no more dispatches can be. -/
theorem spin_ends :
    let dispatcher : Dispatcher := ⟨spinnerHierarchy, { maxCallDepth := 4 }⟩
    let store : Store := ⟨#[some ⟨⟨1, 0⟩, .managed, []⟩]⟩
    let spin := dispatcher.invoke ⟨1, ⟨1, 0⟩⟩ ⟨"spin", 0⟩ [] store
    spinnerHierarchy.Sealed ∧ spinnerHierarchy.Plain ∧
      spin.result = refuse (.callDepthExceeded 4) ∧
      (Machine.step dispatcher)^[16]
        (Machine.start dispatcher ⟨1, ⟨1, 0⟩⟩ ⟨"spin", 0⟩ [] store) = .halted spin ∧
      spin.dispatches.length = 4 ∧ spin.dispatches.length ≤ 4 := by
  intro dispatcher store spin
  have isSealed : spinnerHierarchy.Sealed := ⟨1, [spinnerDecl], rfl⟩
  have plain : spinnerHierarchy.Plain := by decide
  obtain ⟨_, halts, few⟩ := Dispatcher.invoke_ends isSealed plain { maxCallDepth := 4 }
    ⟨1, ⟨1, 0⟩⟩ ⟨"spin", 0⟩ [] store
  exact ⟨isSealed, plain, by decide +kernel, halts, by decide +kernel, few⟩

end Lineage
