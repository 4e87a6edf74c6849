import Mathlib.Algebra.Ring.GeomSum
import Mathlib.Data.List.MinMax
import Mathlib.Tactic.Ring
import Lineage.Proofs.Call.Machine
import Lineage.Proofs.Call.Parametric

/-!
# What the machine comes to

The machine carries out what evaluation says (`runs_eval`, with one case for each kind of
expression), so a call of the host halts it with the effect of that call
(`halts_with_invoke`).  The steps are counted on the way: those that an expression takes
itself (`Expr.steps`), and for each of its calls those of a method one level deeper.  With
at most `most steps` and `most calls` in any body this makes a geometric sum (`span`).
-/

set_option autoImplicit false

namespace Lineage

namespace Expr

/-- The node is a call. -/
def Node.isCall : Node → Bool
  | .invoke _ | .super _ => true
  | _ => false

mutual

/-- How many steps the machine takes in an expression itself. -/
def steps : Expr → Nat
  | .lit _ => 1
  | .this => 1
  | .arg _ => 1
  | .new _ _ => 1
  | .get target _ => steps target + 2
  | .set target _ value => steps target + steps value + 3
  | .invoke target _ operands => steps target + stepsAll operands + 2
  | .super _ operands => stepsAll operands + 1
  | .seq exprs => stepsAll exprs + 1

def stepsAll : List Expr → Nat
  | [] => 0
  | expr :: rest => steps expr + stepsAll rest + 1

end

/-- How many calls occur in an expression. -/
def calls (expr : Expr) : Nat := expr.nodes.countP Node.isCall

def callsAll (exprs : List Expr) : Nat := (nodesAll exprs).countP Node.isCall

section Calls
variable (target value : Expr) (name : String) (operands : List Expr)

attribute [local simp] nodes nodesAll Node.isCall

@[simp] theorem calls_get : (Expr.get target name).calls = target.calls := by
  simp [calls]

@[simp] theorem calls_set : (Expr.set target name value).calls = target.calls + value.calls := by
  simp [calls]

@[simp] theorem calls_invoke :
    (Expr.invoke target name operands).calls = target.calls + callsAll operands + 1 := by
  simp [calls, callsAll, Nat.add_assoc]

@[simp] theorem calls_super : (Expr.super name operands).calls = callsAll operands + 1 := by
  simp [calls, callsAll]

@[simp] theorem calls_seq : (Expr.seq operands).calls = callsAll operands := by
  simp [calls, callsAll]

@[simp] theorem callsAll_cons :
    callsAll (target :: operands) = target.calls + callsAll operands := by
  simp [calls, callsAll]

end Calls

end Expr

/-- How many steps a body takes itself; those of the host take none of this kind. -/
def Body.steps : Body → Nat
  | .expr body => body.steps
  | .native _ => 0

/-- How many calls occur in a body. -/
def Body.calls (body : Body) : Nat := body.nodes.countP Expr.Node.isCall

namespace Hierarchy

/-- The largest measure of any method body of the hierarchy. -/
def most (hierarchy : Hierarchy) (measure : Body → Nat) : Nat :=
  ((hierarchy.classes.classes.toList.flatMap (·.methods)).map fun method =>
    measure method.body).foldr max 0

/-- How many steps the machine takes for a method with so many levels left, at most. -/
def span (hierarchy : Hierarchy) (levels : Nat) : Nat :=
  (hierarchy.most Body.steps + 1) * ∑ level ∈ Finset.range levels, hierarchy.most Body.calls ^ level

theorem span_succ (hierarchy : Hierarchy) (levels : Nat) :
    hierarchy.span (levels + 1) =
      hierarchy.most Body.steps + hierarchy.most Body.calls * hierarchy.span levels + 1 := by
  unfold span
  rw [geom_sum_succ]
  ring

variable {hierarchy : Hierarchy} {decls : List ClassDecl} {method : Method}

theorem Flat.exists_declaring (flat : hierarchy.Flat decls) (has : hierarchy.Has method) :
    ∃ id owner, hierarchy.classes.find? id = some owner ∧ method ∈ owner.methods := by
  obtain ⟨_, resolved⟩ := has
  obtain ⟨_, _, owner, _, _, _, ownerFound, declared, _⟩ := flat.resolve_eq_ok resolved
  exact ⟨owner.id, owner, ownerFound, declared⟩

theorem Flat.le_most (flat : hierarchy.Flat decls) (has : hierarchy.Has method)
    (measure : Body → Nat) : measure method.body ≤ hierarchy.most measure := by
  obtain ⟨id, owner, found, declared⟩ := flat.exists_declaring has
  have stored := ((hierarchy.classes.find?_eq_some_iff id owner).mp found).2
  have listed := List.mem_of_getElem? (Array.getElem?_toList.trans stored)
  refine List.le_max_of_le' 0 (List.mem_map.mpr ⟨method, ?_, rfl⟩) (Nat.le_refl _)
  exact List.mem_flatMap.mpr ⟨owner, listed, declared⟩

theorem Flat.isExpr_of_has (flat : hierarchy.Flat decls) (plain : hierarchy.Plain)
    (has : hierarchy.Has method) : method.body.isExpr = true := by
  obtain ⟨_, resolved⟩ := has
  exact flat.isExpr_of_resolve plain resolved

theorem Flat.has_of_inheritedMethod (flat : hierarchy.Flat decls) {owner : ClassId}
    {signature : Signature} (run : hierarchy.inheritedMethod owner signature = .ok method) :
    hierarchy.Has method := by
  obtain ⟨_, resolved⟩ := resolve_of_inheritedMethod run
  exact flat.has_of_resolve resolved

end Hierarchy

namespace Machine

variable {dispatcher : Dispatcher} {decls : List ClassDecl}

/-- The state with the value of what is running at hand. -/
abbrev Activity.gives (running : Activity) (tasks : List Task) (value : Value) :
    Store → List Event → State :=
  .working running (.value value) tasks

/-- What is said of the activity by evaluation. -/
def Activity.frame (running : Activity) (dispatcher : Dispatcher) (enter : Enter) : Frame where
  dispatcher := dispatcher
  enter := enter
  receiver := running.receiver
  method := running.method
  depth := running.depth

def Callee.answer (callee : Callee) (frame : Frame) (name : String) (values : List Value) :
    Action Value :=
  match callee with
  | .virtual target => frame.invoke target name values
  | .parent => frame.invokeSuper name values

theorem Runs.of_lift {α β : Type} {bound : Nat} {outcome : Outcome α}
    {point : α → Store → List Event → State} {rest : α → Action β}
    {next : β → Store → List Event → State}
    (runs : ∀ value, outcome = .ok value → Runs dispatcher bound (point value) (rest value) next) :
    Runs dispatcher bound (after (Action.lift outcome) point) (Action.lift outcome >>= rest)
      next := by
  cases outcome with
  | error failure =>
      rw [Action.lift_error_bind]
      exact fun store events => (Within.refl _).mono (Nat.zero_le bound)
  | ok value =>
      have here : after (Action.lift (.ok value)) point = point value := after_pure value point
      rw [here, Action.lift_ok_bind]
      exact runs value rfl

/-- Methods that the activity calls are carried out within the steps, and it goes on with
what they return. -/
def Carries (dispatcher : Dispatcher) (bound : Nat) (running : Activity) (enter : Enter) : Prop :=
  ∀ receiver id method args tasks, dispatcher.hierarchy.Has method →
    Runs dispatcher bound
      (Machine.enter dispatcher receiver id method args (running.depth + 1)
        (.leave running :: tasks))
      (enter receiver id method args) (running.gives tasks)

section Expressions
variable (flat : dispatcher.hierarchy.Flat decls) {bound : Nat} {running : Activity}
  {enter : Enter} (carries : Carries dispatcher bound running enter)
include flat carries

set_option linter.unusedSectionVars false

theorem runs_call (callee : Callee) (name : String) (values : List Value) (tasks : List Task) :
    Runs dispatcher bound (call dispatcher running callee name values tasks)
      (callee.answer (running.frame dispatcher enter) name values) (running.gives tasks) := by
  rw [← Nat.zero_add bound]
  cases callee with
  | virtual target =>
      refine (Runs.at_once dispatcher _ _).bind fun id => ?_
      refine Runs.of_lift fun method resolved => ?_
      exact carries target id method values tasks (flat.has_of_resolve resolved)
  | parent =>
      rw [Callee.answer, Frame.invokeSuper_eq, Nat.zero_add]
      refine Runs.of_lift fun method inherited => ?_
      rw [← Nat.zero_add bound]
      refine (Runs.at_once dispatcher _ _).bind fun id => ?_
      exact carries running.receiver id method values tasks (flat.has_of_inheritedMethod inherited)

mutual

/-- The machine evaluates an expression with what is under it left as it is. -/
theorem runs_eval (tasks : List Task) : (expr : Expr) →
    Runs dispatcher (expr.steps + expr.calls * bound) (.working running (.eval expr) tasks)
      ((running.frame dispatcher enter).eval running.args expr) (running.gives tasks)
  | .lit value => by
      rw [Frame.eval]
      exact ((Runs.of_value dispatcher _ _).stepped _ fun _ _ => rfl).mono (Nat.le_add_right _ _)
  | .this => by
      rw [Frame.eval]
      exact ((Runs.of_value dispatcher _ _).stepped _ fun _ _ => rfl).mono (Nat.le_add_right _ _)
  | .arg index => by
      rw [Frame.eval]
      exact ((Runs.at_once dispatcher (running.argument index) _).stepped _ fun _ _ => rfl).mono
        (Nat.le_add_right _ _)
  | .new cls domain => by
      rw [Frame.eval, Frame.allocate_eq]
      have allocates := Runs.at_step (.working running (.eval (.new cls domain)) tasks)
        (fun _ _ => rfl) fun id => Runs.of_value dispatcher (.object id) (running.gives tasks)
      exact allocates.mono (Nat.le_add_right _ _)
  | .get target field => by
      rw [Frame.eval]
      have reads (value : Value) := (Runs.at_once dispatcher
        (Frame.objectOf value >>= fun object => dispatcher.read object field) _).stepped
          (running.gives (.get field :: tasks) value) fun _ _ => rfl
      have target := (runs_eval (.get field :: tasks) target).bind reads
      refine (target.stepped _ fun _ _ => rfl).mono ?_
      rw [Expr.steps, Expr.calls_get]
      omega
  | .set target field value => by
      rw [Frame.eval]
      have stores (object : InstanceNo) (stored : Value) :=
        Runs.at_step (running.gives (.store object field :: tasks) stored) (fun _ _ => rfl)
          fun _ => Runs.of_value dispatcher stored (running.gives tasks)
      have takes (targetValue : Value) :=
        Runs.at_step (running.gives (.set field value :: tasks) targetValue) (fun _ _ => rfl)
          fun object => (runs_eval (.store object field :: tasks) value).bind (stores object)
      have target := (runs_eval (.set field value :: tasks) target).bind takes
      refine (target.stepped _ fun _ _ => rfl).mono ?_
      rw [Expr.steps, Expr.calls_set, Nat.add_mul]
      omega
  | .invoke target method operands => by
      rw [Frame.eval]
      have takes (targetValue : Value) :=
        Runs.at_step (running.gives (.call method operands :: tasks) targetValue) (fun _ _ => rfl)
          fun object => runs_supply tasks (.virtual object) method [] operands
      have target := (runs_eval (.call method operands :: tasks) target).bind takes
      refine (target.stepped _ fun _ _ => rfl).mono ?_
      rw [Expr.steps, Expr.calls_invoke, Nat.add_mul, Nat.add_mul, Nat.one_mul]
      omega
  | .super method operands => by
      rw [Frame.eval]
      refine ((runs_supply tasks .parent method [] operands).stepped _ fun _ _ => rfl).mono ?_
      rw [Expr.steps, Expr.calls_super, Nat.add_mul, Nat.one_mul]
      omega
  | .seq exprs => by
      rw [Frame.eval]
      refine ((runs_proceed tasks .nil exprs).stepped _ fun _ _ => rfl).mono ?_
      rw [Expr.steps, Expr.calls_seq]
      omega

theorem runs_supply (tasks : List Task) (callee : Callee) (name : String) (values : List Value) :
    (operands : List Expr) →
    Runs dispatcher (Expr.stepsAll operands + Expr.callsAll operands * bound + bound)
      (supply dispatcher running callee name values tasks operands)
      ((running.frame dispatcher enter).evalAll running.args operands >>= fun others =>
        callee.answer (running.frame dispatcher enter) name (values ++ others))
      (running.gives tasks)
  | [] => by
      rw [Frame.evalAll, pure_bind, List.append_nil]
      exact (runs_call flat carries callee name values tasks).mono (Nat.le_add_left _ _)
  | expr :: rest => by
      rw [Frame.evalAll]
      simp only [bind_assoc, pure_bind]
      have others (value : Value) :=
        (runs_supply tasks callee name (values ++ [value]) rest).stepped
          (running.gives (.operand callee name values rest :: tasks) value) fun _ _ => rfl
      simp only [List.append_assoc, List.singleton_append] at others
      refine ((runs_eval (.operand callee name values rest :: tasks) expr).bind others).mono ?_
      rw [Expr.stepsAll, Expr.callsAll_cons, Nat.add_mul]
      omega

theorem runs_proceed (tasks : List Task) (last : Value) : (exprs : List Expr) →
    Runs dispatcher (Expr.stepsAll exprs + Expr.callsAll exprs * bound)
      (proceed running last tasks exprs)
      ((running.frame dispatcher enter).evalLast running.args last exprs) (running.gives tasks)
  | [] => by
      rw [Frame.evalLast]
      exact (Runs.of_value dispatcher last (running.gives tasks)).mono (Nat.zero_le _)
  | expr :: rest => by
      rw [Frame.evalLast]
      have others (value : Value) := (runs_proceed tasks value rest).stepped
        (running.gives (.steps rest :: tasks) value) fun _ _ => rfl
      refine ((runs_eval (.steps rest :: tasks) expr).bind others).mono ?_
      rw [Expr.stepsAll, Expr.callsAll_cons, Nat.add_mul]
      omega

end

end Expressions

/-! ## Whole calls -/

section Calls
variable (flat : dispatcher.hierarchy.Flat decls) (plain : dispatcher.hierarchy.Plain)
include flat plain

/-- A method is carried out within the span of the levels that are left, and with it the
step that takes what it returns. -/
theorem runs_enter (levels : Nat) {depth : Nat}
    (left : depth + levels = dispatcher.options.maxCallDepth) (receiver : InstanceNo)
    (id : ClassId) {method : Method} (has : dispatcher.hierarchy.Has method) (args : List Value)
    {tasks : List Task} {next : Value → Store → List Event → State}
    (returns : ∀ running value store events,
      step dispatcher (.working running (.value value) tasks store events) =
        next value store events) :
    Runs dispatcher (dispatcher.hierarchy.span levels)
      (enter dispatcher receiver id method args depth tasks)
      (dispatcher.run levels receiver id method args) next := by
  -- what is under the method is arbitrary, so the hypothesis also serves its nested calls
  induction levels generalizing depth receiver id method args tasks next with
  | zero =>
      have tooDeep : ¬ depth < dispatcher.options.maxCallDepth := by omega
      intro store events
      rw [enter, if_neg tooDeep, Dispatcher.run, after_raise]
      exact (Within.refl _).mono (Nat.zero_le _)
  | succ levels ih =>
      have within : depth < dispatcher.options.maxCallDepth := by omega
      obtain ⟨body, isBody⟩ := exists_expr_of_isExpr (flat.isExpr_of_has plain has)
      let running : Activity := ⟨receiver, method, args, depth⟩
      have carries : Carries dispatcher (dispatcher.hierarchy.span levels) running
          (dispatcher.run levels) := by
        intro inner innerId called values others calledHas
        exact ih (by simp only [running]; omega) inner innerId calledHas values
          fun _ _ _ _ => rfl
      have evaluates := (runs_eval flat carries tasks body).andThen (returns running)
      have reports := (Runs.at_once dispatcher
        (dispatcher.announce receiver id method depth) _).bind fun _ => evaluates
      have steps := flat.le_most has Body.steps
      have calls := flat.le_most has Body.calls
      rw [isBody] at steps calls
      have depthHere : dispatcher.options.maxCallDepth - (levels + 1) = depth := by omega
      have sameFrame : dispatcher.frameAt levels receiver method =
          running.frame dispatcher (dispatcher.run levels) := by
        simp only [Dispatcher.frameAt, Activity.frame, running, depthHere]
      rw [Dispatcher.run_succ_of_expr _ _ _ _ _ _ isBody, depthHere, sameFrame, enter,
        if_pos within]
      simp only [isBody]
      refine reports.mono ?_
      have nested := Nat.mul_le_mul_right (dispatcher.hierarchy.span levels) calls
      have more := dispatcher.hierarchy.span_succ levels
      change body.steps ≤ _ at steps
      change body.calls * _ ≤ _ at nested
      omega

/-- A call of the host halts the machine with what it comes to, within the span of all
levels. -/
theorem halts_with_invoke (reference : Reference) (signature : Signature) (args : List Value)
    (store : Store) :
    (step dispatcher)^[dispatcher.hierarchy.span dispatcher.options.maxCallDepth]
        (start dispatcher reference signature args store) =
      .halted (dispatcher.invoke reference signature args store) := by
  let next : Value → Store → List Event → State := fun value store events =>
    .halted ⟨.ok value, store, events⟩
  have begins : Runs dispatcher (dispatcher.hierarchy.span dispatcher.options.maxCallDepth)
      (after (Action.lift (dispatcher.hierarchy.permits reference.staticType signature)) fun _ =>
        dispatch dispatcher reference.target signature args 0 [])
      (dispatcher.invoke reference signature args) next := by
    rw [Dispatcher.invoke_eq]
    refine Runs.of_lift fun _ _ => ?_
    rw [← Nat.zero_add (dispatcher.hierarchy.span _)]
    refine (Runs.at_once dispatcher _ _).bind fun id => ?_
    refine Runs.of_lift fun method resolved => ?_
    exact runs_enter flat plain _ (Nat.zero_add _) reference.target id
      (flat.has_of_resolve resolved) args fun _ _ _ _ => rfl
  have halts := begins store []
  rcases run : dispatcher.invoke reference signature args store with
    ⟨failure | value, reached, events⟩
  · rw [after_of_error run] at halts
    exact halts.iterate_eq
  · rw [after_of_ok run] at halts
    exact halts.iterate_eq

end Calls

end Machine

end Lineage
