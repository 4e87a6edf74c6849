import Mathlib.Logic.Function.Iterate
import Lineage.Proofs.Call.Nodes

/-!
# A machine for calls

Calls of expression bodies in single steps.  A state has an expression to evaluate or a
value at hand, for the method that is running, and under it what is left to do with the
value (`Task`); callers wait there, too.  The machine is given no number of steps and no
number of levels: the depth is counted upwards and compared with the limit where a method
is entered, and a step is defined everywhere (`step`).  Bodies that the host provides are
none of its business.

`Runs` says that the machine carries out an action within a number of steps, whatever is
under it: the action's value is handed on, or its failure halts the machine.
-/

set_option autoImplicit false

namespace Lineage

namespace Machine

/-- A method that is running. -/
structure Activity where
  receiver : InstanceNo
  method : Method
  args : List Value
  depth : Nat

/-- Whose method is called: that of an object, or the inherited one for the receiver. -/
inductive Callee where
  | virtual (target : InstanceNo)
  | parent

/-- What is left to do with the value at hand. -/
inductive Task where
  | get (field : String)
  /-- It is the object of a `set`; the stored value comes next. -/
  | set (field : String) (value : Expr)
  | store (object : InstanceNo) (field : String)
  /-- It is the object of a call; the operands come next. -/
  | call (method : String) (operands : List Expr)
  /-- It is an operand, after those there are and before those that are left. -/
  | operand (callee : Callee) (method : String) (values : List Value) (operands : List Expr)
  | steps (rest : List Expr)
  /-- It is what the running method returns. -/
  | leave (caller : Activity)

inductive Control where
  | eval (expr : Expr)
  | value (value : Value)

inductive State where
  | working (running : Activity) (control : Control) (tasks : List Task) (store : Store)
      (events : List Event)
  | halted (effect : Effect Value)

/-- Do something at once and go on with its value; a failure halts the machine. -/
def after {α : Type} (action : Action α) (next : α → Store → List Event → State)
    (store : Store) (events : List Event) : State :=
  match action store with
  | ⟨.ok value, reached, more⟩ => next value reached (events ++ more)
  | ⟨.error failure, reached, more⟩ => .halted ⟨.error failure, reached, events ++ more⟩

def Activity.argument (running : Activity) (index : Nat) : Action Value :=
  match running.args[index]? with
  | some value => pure value
  | none => Action.raise (.argumentOutOfRange index running.method.signature)

section Steps
variable (dispatcher : Dispatcher)

/-- A method is reported and its body is next, unless calls are nested too deep. -/
def enter (receiver : InstanceNo) (id : ClassId) (method : Method) (args : List Value)
    (depth : Nat) (tasks : List Task) : Store → List Event → State :=
  if depth < dispatcher.options.maxCallDepth then
    after (dispatcher.announce receiver id method depth) fun _ store events =>
      match method.body with
      | .expr body => .working ⟨receiver, method, args, depth⟩ (.eval body) tasks store events
      | .native _ => .halted ⟨.error .breach, store, events⟩
  else
    fun store events =>
      .halted ⟨refuse (.callDepthExceeded dispatcher.options.maxCallDepth), store, events⟩

def dispatch (target : InstanceNo) (signature : Signature) (args : List Value) (depth : Nat)
    (tasks : List Task) : Store → List Event → State :=
  after (dispatcher.classOf target) fun id =>
    after (Action.lift (dispatcher.hierarchy.resolve id signature)) fun method =>
      enter dispatcher target id method args depth tasks

/-- Call with all operands there; the caller waits. -/
def call (running : Activity) (callee : Callee) (name : String) (values : List Value)
    (tasks : List Task) : Store → List Event → State :=
  match callee with
  | .virtual target =>
      dispatch dispatcher target ⟨name, values.length⟩ values (running.depth + 1)
        (.leave running :: tasks)
  | .parent =>
      after (Action.lift (dispatcher.hierarchy.inheritedMethod running.method.owner
          ⟨name, values.length⟩)) fun method =>
        after (dispatcher.classOf running.receiver) fun id =>
          enter dispatcher running.receiver id method values (running.depth + 1)
            (.leave running :: tasks)

def supply (running : Activity) (callee : Callee) (name : String) (values : List Value)
    (tasks : List Task) : List Expr → Store → List Event → State
  | [] => call dispatcher running callee name values tasks
  | expr :: rest => .working running (.eval expr) (.operand callee name values rest :: tasks)

def proceed (running : Activity) (last : Value) (tasks : List Task) :
    List Expr → Store → List Event → State
  | [] => .working running (.value last) tasks
  | expr :: rest => .working running (.eval expr) (.steps rest :: tasks)

/-- The step at an expression. -/
def evaluate (running : Activity) (tasks : List Task) : Expr → Store → List Event → State
  | .lit value => .working running (.value value.value) tasks
  | .this => .working running (.value (.object running.receiver)) tasks
  | .arg index => after (running.argument index) fun value => .working running (.value value) tasks
  | .new cls domain =>
      after (dispatcher.allocateFor running.receiver cls domain) fun id =>
        .working running (.value (.object id)) tasks
  | .get target field => .working running (.eval target) (.get field :: tasks)
  | .set target field value => .working running (.eval target) (.set field value :: tasks)
  | .invoke target method operands =>
      .working running (.eval target) (.call method operands :: tasks)
  | .super method operands => supply dispatcher running .parent method [] tasks operands
  | .seq steps => proceed running .nil tasks steps

/-- The step at a value. -/
def resume (running : Activity) (value : Value) (tasks : List Task) :
    Task → Store → List Event → State
  | .get field =>
      after (Frame.objectOf value >>= fun object => dispatcher.read object field) fun content =>
        .working running (.value content) tasks
  | .set field expr =>
      after (Frame.objectOf value) fun object =>
        .working running (.eval expr) (.store object field :: tasks)
  | .store object field =>
      after (dispatcher.write object field value) fun _ => .working running (.value value) tasks
  | .call method operands =>
      after (Frame.objectOf value) fun object =>
        supply dispatcher running (.virtual object) method [] tasks operands
  | .operand callee method values operands =>
      supply dispatcher running callee method (values ++ [value]) tasks operands
  | .steps rest => proceed running value tasks rest
  | .leave caller => .working caller (.value value) tasks

def step : State → State
  | .working running (.eval expr) tasks store events =>
      evaluate dispatcher running tasks expr store events
  | .working running (.value value) (task :: tasks) store events =>
      resume dispatcher running value tasks task store events
  | .working _ (.value value) [] store events => .halted ⟨.ok value, store, events⟩
  | .halted effect => .halted effect

/-- A call of the host, past the check of its static type. -/
def start (reference : Reference) (signature : Signature) (args : List Value) (store : Store) :
    State :=
  after (Action.lift (dispatcher.hierarchy.permits reference.staticType signature))
    (fun _ => dispatch dispatcher reference.target signature args 0 []) store []

end Steps

/-! ## Doing something at once -/

section After
variable {α β : Type}

theorem after_of_ok {action : Action α} {store reached : Store} {value : α} {more : List Event}
    (run : action store = ⟨.ok value, reached, more⟩) (next : α → Store → List Event → State)
    (events : List Event) :
    after action next store events = next value reached (events ++ more) := by
  rw [after, run]

theorem after_of_error {action : Action α} {store reached : Store} {failure : Failure}
    {more : List Event} (run : action store = ⟨.error failure, reached, more⟩)
    (next : α → Store → List Event → State) (events : List Event) :
    after action next store events = .halted ⟨.error failure, reached, events ++ more⟩ := by
  rw [after, run]

@[simp] theorem after_pure (value : α) (next : α → Store → List Event → State) :
    after (pure value) next = next value := by
  funext store events
  rw [after_of_ok (Action.run_pure value store), List.append_nil]

@[simp] theorem after_raise (cause : Fault) (next : α → Store → List Event → State)
    (store : Store) (events : List Event) :
    after (Action.raise cause) next store events = .halted ⟨refuse cause, store, events⟩ := by
  rw [after_of_error (Action.run_raise cause store), List.append_nil]
  rfl

theorem after_bind (action : Action α) (rest : α → Action β)
    (next : β → Store → List Event → State) :
    after (action >>= rest) next = after action fun value => after (rest value) next := by
  funext store events
  rcases run : action store with ⟨failure | value, reached, more⟩
  · rw [after_of_error run, after_of_error (Action.run_bind_of_error run rest)]
  · rw [after_of_ok run]
    rcases later : rest value reached with ⟨failure | result, last, final⟩
    · have whole := Action.run_bind_of_ok run rest
      rw [later] at whole
      rw [after_of_error whole, after_of_error later, List.append_assoc]
    · have whole := Action.run_bind_of_ok run rest
      rw [later] at whole
      rw [after_of_ok whole, after_of_ok later, List.append_assoc]

end After

/-! ## Within a number of steps -/

section Within
variable (dispatcher : Dispatcher)

def Within (bound : Nat) (early late : State) : Prop :=
  ∃ steps ≤ bound, (step dispatcher)^[steps] early = late

variable {dispatcher} {first second third : State} {bound more : Nat}

theorem Within.refl (state : State) : Within dispatcher 0 state state := ⟨0, Nat.le_refl 0, rfl⟩

theorem Within.trans (early : Within dispatcher bound first second)
    (late : Within dispatcher more second third) :
    Within dispatcher (bound + more) first third := by
  obtain ⟨steps, few, reached⟩ := early
  obtain ⟨further, fewMore, last⟩ := late
  refine ⟨further + steps, by omega, ?_⟩
  rw [Function.iterate_add_apply, reached, last]

theorem Within.mono (within : Within dispatcher bound first second) (le : bound ≤ more) :
    Within dispatcher more first second := by
  obtain ⟨steps, few, reached⟩ := within
  exact ⟨steps, Nat.le_trans few le, reached⟩

theorem iterate_halted (steps : Nat) (effect : Effect Value) :
    (step dispatcher)^[steps] (.halted effect) = .halted effect :=
  Function.iterate_fixed rfl steps

/-- A machine that has halted stays as it is. -/
theorem Within.iterate_eq {effect : Effect Value}
    (within : Within dispatcher bound first (.halted effect)) :
    (step dispatcher)^[bound] first = .halted effect := by
  obtain ⟨steps, few, reached⟩ := within
  obtain ⟨rest, rfl⟩ := Nat.exists_eq_add_of_le' few
  rw [Function.iterate_add_apply, reached, iterate_halted]

end Within

/-- From wherever the point is taken up, the action is carried out within the steps, and
what comes next is what comes next after the action. -/
def Runs (dispatcher : Dispatcher) {α : Type} (bound : Nat) (point : Store → List Event → State)
    (action : Action α) (next : α → Store → List Event → State) : Prop :=
  ∀ store events, Within dispatcher bound (point store events) (after action next store events)

namespace Runs

variable (dispatcher : Dispatcher) {α β : Type} {bound more : Nat}
  {point : Store → List Event → State} {action : Action α}
  {next : α → Store → List Event → State}

theorem at_once (action : Action α) (next : α → Store → List Event → State) :
    Runs dispatcher 0 (after action next) action next :=
  fun store events => .refl (after action next store events)

theorem of_value (value : α) (next : α → Store → List Event → State) :
    Runs dispatcher 0 (next value) (pure value) next := by
  have runs := at_once dispatcher (pure value) next
  rwa [after_pure] at runs

variable {dispatcher}

theorem mono (runs : Runs dispatcher bound point action next) (le : bound ≤ more) :
    Runs dispatcher more point action next :=
  fun store events => (runs store events).mono le

theorem bind {middle : α → Store → List Event → State} {rest : α → Action β}
    {last : β → Store → List Event → State} (first : Runs dispatcher bound point action middle)
    (others : ∀ value, Runs dispatcher more (middle value) (rest value) last) :
    Runs dispatcher (bound + more) point (action >>= rest) last := by
  intro store events
  refine (first store events).trans ?_
  rw [after_bind]
  rcases run : action store with ⟨failure | value, reached, reported⟩
  · rw [after_of_error run, after_of_error run]
    exact (Within.refl _).mono (Nat.zero_le more)
  · rw [after_of_ok run, after_of_ok run]
    exact others value reached (events ++ reported)

/-- One more step before. -/
theorem stepped (runs : Runs dispatcher bound point action next)
    (earlier : Store → List Event → State)
    (steps : ∀ store events, step dispatcher (earlier store events) = point store events) :
    Runs dispatcher (bound + 1) earlier action next := by
  intro store events
  rw [Nat.add_comm]
  refine Within.trans ?_ (runs store events)
  exact ⟨1, Nat.le_refl 1, steps store events⟩

/-- A step that does something at once, and then the rest. -/
theorem at_step {middle : α → Store → List Event → State} {rest : α → Action β}
    {last : β → Store → List Event → State} (earlier : Store → List Event → State)
    (steps : ∀ store events,
      step dispatcher (earlier store events) = after action middle store events)
    (others : ∀ value, Runs dispatcher bound (middle value) (rest value) last) :
    Runs dispatcher (bound + 1) earlier (action >>= rest) last := by
  have whole := (at_once dispatcher action middle).bind others
  rw [Nat.zero_add] at whole
  exact whole.stepped earlier steps

/-- One more step with the value. -/
theorem andThen {last : α → Store → List Event → State}
    (runs : Runs dispatcher bound point action next)
    (steps : ∀ value store events, step dispatcher (next value store events) =
      last value store events) : Runs dispatcher (bound + 1) point action last := by
  have whole := runs.bind fun value => (of_value dispatcher value last).stepped _ (steps value)
  rwa [bind_pure, Nat.zero_add] at whole

end Runs

end Machine

end Lineage
