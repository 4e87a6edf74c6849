import Lineage.Dispatcher.Basic

/-!
# Call frames

A frame is one running method: its receiver, the method and the depth of the
call.  Expression bodies are evaluated against it and native bodies are served
by it.  How a nested method is run is a parameter of the frame, so evaluation
itself is a plain recursion on the expression.
-/

set_option autoImplicit false

namespace Lineage

/-- One running method. -/
structure Frame where
  dispatcher : Dispatcher
  /-- Runs the methods that this one calls, one level deeper. -/
  enter : Enter
  receiver : InstanceNo
  method : Method
  depth : Nat

namespace Frame

def declaring (frame : Frame) : Outcome Class :=
  frame.dispatcher.hierarchy.classes.classAt frame.method.owner

def domain (frame : Frame) : Action Domain :=
  Action.query fun store => store.domainOf frame.receiver

/-- A new instance; without a domain it joins the receiver's, which is asked for
before the class. -/
def allocate (frame : Frame) (cls : String) : Option Domain → Action InstanceNo
  | some domain => frame.dispatcher.allocate cls domain
  | none => do
      let domain ← frame.domain
      frame.dispatcher.allocate cls domain

def invoke (frame : Frame) (target : InstanceNo) (method : String) (args : List Value) :
    Action Value :=
  frame.dispatcher.dispatch frame.enter target ⟨method, args.length⟩ args

/-- The method that the declaring class inherits, run on the same receiver. -/
def invokeSuper (frame : Frame) (method : String) (args : List Value) : Action Value := do
  let signature : Signature := ⟨method, args.length⟩
  let declaring ← Action.lift frame.declaring
  match declaring.parent with
  | none => Action.raise (.noSuchMethod declaring.name signature)
  | some parent =>
      let inherited ← Action.lift (frame.dispatcher.hierarchy.resolve parent signature)
      let cls ← frame.dispatcher.classOf frame.receiver
      frame.enter frame.receiver cls inherited args

def objectOf (value : Value) : Action InstanceNo :=
  match value.object? with
  | some id => pure id
  | none => Action.raise (.notAnObject value.kind)

mutual

/-- The value of an expression for the given arguments of the running call. -/
def eval (frame : Frame) (args : List Value) : Expr → Action Value
  | .lit value => pure value.value
  | .this => pure (.object frame.receiver)
  | .arg index =>
      match args[index]? with
      | some value => pure value
      | none => Action.raise (.argumentOutOfRange index frame.method.signature)
  | .new cls domain => do
      let id ← frame.allocate cls domain
      return .object id
  | .get target field => do
      let object ← objectOf (← eval frame args target)
      frame.dispatcher.read object field
  | .set target field value => do
      let object ← objectOf (← eval frame args target)
      let stored ← eval frame args value
      frame.dispatcher.write object field stored
      return stored
  | .invoke target method operands => do
      let object ← objectOf (← eval frame args target)
      let values ← evalAll frame args operands
      frame.invoke object method values
  | .super method operands => do
      let values ← evalAll frame args operands
      frame.invokeSuper method values
  | .seq steps => evalLast frame args .nil steps

def evalAll (frame : Frame) (args : List Value) : List Expr → Action (List Value)
  | [] => pure []
  | expr :: rest => do
      let value ← eval frame args expr
      let values ← evalAll frame args rest
      return value :: values

/-- The value of the last expression, or the one given if there is none. -/
def evalLast (frame : Frame) (args : List Value) (last : Value) : List Expr → Action Value
  | [] => pure last
  | expr :: rest => do
      let value ← eval frame args expr
      evalLast frame args value rest

end

/-! ## Native bodies -/

def view (frame : Frame) (owner : String) : Native.View where
  receiver := frame.receiver
  signature := frame.method.signature
  owner := owner
  depth := frame.depth

def answer (frame : Frame) : (request : Native.Request) → Action request.Reply
  | .domain => frame.domain
  | .read target field => frame.dispatcher.read target field
  | .write target field value => frame.dispatcher.write target field value
  | .allocate cls domain => frame.allocate cls domain
  | .invoke target method args => frame.invoke target method args
  | .invokeSuper method args => frame.invokeSuper method args

/-- Run a native program.  A failure of its own becomes a fault that names the
declaring class; a fault of the engine stays what it is. -/
def perform (frame : Frame) (owner : String) : Native.Program Value → Action Value
  | .done value => pure value
  | .fail cause => Action.raise (.native owner frame.method.signature cause)
  | .raise fault => Action.raise fault
  | .ask request resume => do
      let reply ← Action.attempt (frame.answer request)
      perform frame owner (resume reply)

def runBody (frame : Frame) (owner : String) (args : List Value) : Action Value :=
  match frame.method.body with
  | .expr body => frame.eval args body
  | .native body => frame.perform owner (body (frame.view owner) args)

end Frame

end Lineage
