import Lineage.Proofs.Call.Steps

/-!
# Expressions as programs of requests

An expression asks for what a body of the host may ask for, one request after another,
and ends with the first fault (`relays_program`).  So its evaluation is the performance of a
program (`perform_program`), and every body is one (`runBody_eq_perform`): what is to be said
of bodies of both kinds needs an induction on programs only.
-/

set_option autoImplicit false

namespace Lineage

open Native (Program)

/-- Go on with the instance that a value refers to. -/
def Value.thenObject (value : Value) (next : InstanceNo → Program Value) : Program Value :=
  match value.object? with
  | some id => next id
  | none => .raise (.notAnObject value.kind)

section Programs
variable (receiver : InstanceNo) (signature : Signature) (args : List Value)

mutual

/-- What an expression asks for, and what is done with its value. -/
def Expr.program : Expr → (Value → Program Value) → Program Value
  | .lit value, next => next value.value
  | .this, next => next (.object receiver)
  | .arg index, next =>
      match args[index]? with
      | some value => next value
      | none => .raise (.argumentOutOfRange index signature)
  | .new cls domain, next =>
      (Program.request (.allocate cls domain)).bind fun id => next (.object id)
  | .get target field, next =>
      target.program fun value => value.thenObject fun object =>
        (Program.request (.read object field)).bind next
  | .set target field value, next =>
      target.program fun targetValue => targetValue.thenObject fun object =>
        value.program fun stored =>
          (Program.request (.write object field stored)).bind fun _ => next stored
  | .invoke target method operands, next =>
      target.program fun value => value.thenObject fun object =>
        programAll operands fun values =>
          (Program.request (.invoke object method values)).bind next
  | .super method operands, next =>
      programAll operands fun values =>
        (Program.request (.invokeSuper method values)).bind next
  | .seq steps, next => programLast .nil steps next

def Expr.programAll : List Expr → (List Value → Program Value) → Program Value
  | [], next => next []
  | expr :: rest, next =>
      expr.program fun value => programAll rest fun values => next (value :: values)

def Expr.programLast (last : Value) : List Expr → (Value → Program Value) → Program Value
  | [], next => next last
  | expr :: rest, next => expr.program fun value => programLast value rest next

end

end Programs

/-! ## Programs that end with the first fault -/

/-- The program ends with every fault that it is given, and otherwise only in the ways
named. -/
def Native.Program.Relays {α : Type} (ends : Program α → Prop) : Program α → Prop
  | .ask _ resume =>
      (∀ fault, resume (.error fault) = .raise fault) ∧
        ∀ reply, (resume (.ok reply)).Relays ends
  | ending => ends ending

theorem relays_request {α : Type} {ends : Program α → Prop} (request : Native.Request)
    {next : request.Reply → Program α} (relays : ∀ reply, (next reply).Relays ends) :
    ((Program.request request).bind next).Relays ends :=
  ⟨fun _ => rfl, relays⟩

/-- How an expression ends for the given arguments: with a value, with something that was
expected to be an object, or with an argument that is not there. -/
inductive Expr.Ending (signature : Signature) (args : List Value) : Program Value → Prop where
  | done (value : Value) : Ending signature args (.done value)
  | notAnObject {found : Kind} (other : found ≠ .object) :
      Ending signature args (.raise (.notAnObject found))
  | argumentOutOfRange {index : Nat} (beyond : args.length ≤ index) :
      Ending signature args (.raise (.argumentOutOfRange index signature))

section Relaying
variable {signature : Signature} {args : List Value}

theorem relays_thenObject (value : Value) {next : InstanceNo → Program Value}
    (relays : ∀ id, (next id).Relays (Expr.Ending signature args)) :
    (value.thenObject next).Relays (Expr.Ending signature args) := by
  cases value with
  | object id => exact relays id
  | _ => exact .notAnObject nofun

variable (receiver : InstanceNo)

mutual

/-- An expression ends with every fault that it is given. -/
theorem relays_program : (expr : Expr) → {next : Value → Program Value} →
    (∀ value, (next value).Relays (Expr.Ending signature args)) →
    (expr.program receiver signature args next).Relays (Expr.Ending signature args)
  | .lit value, _, relays => by
      rw [Expr.program]
      exact relays _
  | .this, _, relays => by
      rw [Expr.program]
      exact relays _
  | .arg index, _, relays => by
      rw [Expr.program]
      cases there : args[index]? with
      | some value => exact relays value
      | none => exact .argumentOutOfRange (List.getElem?_eq_none_iff.mp there)
  | .new cls domain, _, relays => by
      rw [Expr.program]
      exact relays_request _ fun id => relays _
  | .get target field, _, relays => by
      rw [Expr.program]
      refine relays_program target fun value => relays_thenObject value fun object => ?_
      exact relays_request _ relays
  | .set target field value, _, relays => by
      rw [Expr.program]
      refine relays_program target fun targetValue => relays_thenObject targetValue fun object => ?_
      refine relays_program value fun stored => ?_
      exact relays_request _ fun _ => relays stored
  | .invoke target method operands, _, relays => by
      rw [Expr.program]
      refine relays_program target fun value => relays_thenObject value fun object => ?_
      refine relays_programAll operands fun values => ?_
      exact relays_request _ relays
  | .super method operands, _, relays => by
      rw [Expr.program]
      refine relays_programAll operands fun values => ?_
      exact relays_request _ relays
  | .seq steps, _, relays => by
      rw [Expr.program]
      exact relays_programLast .nil steps relays

theorem relays_programAll : (exprs : List Expr) → {next : List Value → Program Value} →
    (∀ values, (next values).Relays (Expr.Ending signature args)) →
    (Expr.programAll receiver signature args exprs next).Relays (Expr.Ending signature args)
  | [], _, relays => by
      rw [Expr.programAll]
      exact relays []
  | expr :: rest, _, relays => by
      rw [Expr.programAll]
      refine relays_program expr fun value => ?_
      exact relays_programAll rest fun values => relays (value :: values)

theorem relays_programLast (last : Value) : (exprs : List Expr) →
    {next : Value → Program Value} →
    (∀ value, (next value).Relays (Expr.Ending signature args)) →
    (Expr.programLast receiver signature args last exprs next).Relays (Expr.Ending signature args)
  | [], _, relays => by
      rw [Expr.programLast]
      exact relays last
  | expr :: rest, _, relays => by
      rw [Expr.programLast]
      refine relays_program expr fun value => ?_
      exact relays_programLast value rest relays

end

end Relaying

namespace Frame

variable (frame : Frame) (owner : String)

/-- A program that asks and lets faults end it goes on with the answer. -/
theorem perform_request (request : Native.Request) (next : request.Reply → Program Value) :
    frame.perform owner ((Program.request request).bind next) =
      (frame.answer request >>= fun reply => frame.perform owner (next reply)) := by
  change (Action.attempt (frame.answer request) >>= _) = _
  funext store
  rcases run : frame.answer request store with ⟨(cause | _) | reply, reached, events⟩
  · have handed : Action.attempt (frame.answer request) store =
        ⟨.ok (.error cause), reached, events⟩ := by rw [Action.attempt, run]
    rw [Action.run_bind_of_ok handed, Action.run_bind_of_error run]
    exact congrArg (Effect.mk _ _) (List.append_nil events)
  · have breached : Action.attempt (frame.answer request) store =
        ⟨.error .breach, reached, events⟩ := by rw [Action.attempt, run]
    rw [Action.run_bind_of_error breached, Action.run_bind_of_error run]
  · have handed : Action.attempt (frame.answer request) store =
        ⟨.ok (.ok reply), reached, events⟩ := by rw [Action.attempt, run]
    rw [Action.run_bind_of_ok handed, Action.run_bind_of_ok run]
    rfl

theorem perform_thenObject (value : Value) (next : InstanceNo → Program Value) :
    frame.perform owner (value.thenObject next) =
      (objectOf value >>= fun id => frame.perform owner (next id)) := by
  unfold Value.thenObject objectOf
  cases value.object? with
  | some id => rfl
  | none => rfl

variable (args : List Value)

mutual

/-- An expression is evaluated by performing its program. -/
theorem perform_program : (expr : Expr) → (next : Value → Program Value) →
    frame.perform owner (expr.program frame.receiver frame.method.signature args next) =
      (frame.eval args expr >>= fun value => frame.perform owner (next value))
  | .lit value, next => by
      rw [Expr.program, eval, pure_bind]
  | .this, next => by
      rw [Expr.program, eval, pure_bind]
  | .arg index, next => by
      rw [Expr.program, eval]
      cases args[index]? with
      | some value => rfl
      | none => rfl
  | .new cls domain, next => by
      rw [Expr.program, eval, bind_assoc]
      exact frame.perform_request owner (.allocate cls domain) fun id => next (.object id)
  | .get target field, next => by
      rw [Expr.program, eval, perform_program target, bind_assoc]
      refine bind_congr fun value => ?_
      rw [perform_thenObject, bind_assoc]
      refine bind_congr fun object => ?_
      exact frame.perform_request owner (.read object field) next
  | .set target field value, next => by
      rw [Expr.program, eval, perform_program target, bind_assoc]
      refine bind_congr fun targetValue => ?_
      rw [perform_thenObject, bind_assoc]
      refine bind_congr fun object => ?_
      rw [perform_program value, bind_assoc]
      refine bind_congr fun stored => ?_
      rw [bind_assoc]
      exact frame.perform_request owner (.write object field stored) fun _ => next stored
  | .invoke target method operands, next => by
      rw [Expr.program, eval, perform_program target, bind_assoc]
      refine bind_congr fun value => ?_
      rw [perform_thenObject, bind_assoc]
      refine bind_congr fun object => ?_
      rw [perform_programAll operands, bind_assoc]
      refine bind_congr fun values => ?_
      exact frame.perform_request owner (.invoke object method values) next
  | .super method operands, next => by
      rw [Expr.program, eval, perform_programAll operands, bind_assoc]
      refine bind_congr fun values => ?_
      exact frame.perform_request owner (.invokeSuper method values) next
  | .seq steps, next => by
      rw [Expr.program, eval, perform_programLast .nil steps]

theorem perform_programAll : (exprs : List Expr) → (next : List Value → Program Value) →
    frame.perform owner (Expr.programAll frame.receiver frame.method.signature args exprs next) =
      (frame.evalAll args exprs >>= fun values => frame.perform owner (next values))
  | [], next => by
      rw [Expr.programAll, evalAll, pure_bind]
  | expr :: rest, next => by
      rw [Expr.programAll, evalAll, perform_program expr]
      simp only [perform_programAll rest, bind_assoc, pure_bind]

theorem perform_programLast (last : Value) : (exprs : List Expr) →
    (next : Value → Program Value) →
    frame.perform owner
        (Expr.programLast frame.receiver frame.method.signature args last exprs next) =
      (frame.evalLast args last exprs >>= fun value => frame.perform owner (next value))
  | [], next => by
      rw [Expr.programLast, evalLast, pure_bind]
  | expr :: rest, next => by
      rw [Expr.programLast, evalLast, perform_program expr]
      simp only [fun value => perform_programLast value rest, bind_assoc]

end

/-- What the running method asks for, whichever kind of body it has. -/
def program : Program Value :=
  match frame.method.body with
  | .expr body => body.program frame.receiver frame.method.signature args .done
  | .native body => body (frame.view owner) args

/-- Every body is run by performing a program. -/
theorem runBody_eq_perform :
    frame.runBody owner args = frame.perform owner (frame.program owner args) := by
  unfold program
  cases isBody : frame.method.body with
  | expr body =>
      rw [runBody_of_expr isBody]
      dsimp only
      rw [perform_program]
      exact (bind_pure _).symm
  | native body => exact runBody_of_native isBody owner args

end Frame

end Lineage
