import Lineage.Fault

/-!
# Host-provided methods

A native body does not touch the engine's state.  It is a program that asks the
engine for one thing at a time and goes on with the reply, so everything that it
can do is one of the requests listed here, and it always ends.
-/

set_option autoImplicit false

namespace Lineage.Native

/-- What a native body sees of the call that runs it. -/
structure View where
  receiver : InstanceNo
  signature : Signature
  /-- The name of the class that declares the running method. -/
  owner : String
  depth : Nat
  deriving DecidableEq, Repr

/-- One thing that a native body can ask of the engine. -/
inductive Request where
  | domain
  | read (target : InstanceNo) (field : String)
  | write (target : InstanceNo) (field : String) (value : Value)
  /-- A new instance; without a domain it joins the receiver's. -/
  | allocate (cls : String) (domain : Option Domain)
  /-- A virtual call, one level deeper. -/
  | invoke (target : InstanceNo) (method : String) (args : List Value)
  /-- The method that the declaring class inherits, on the same receiver. -/
  | invokeSuper (method : String) (args : List Value)
  deriving DecidableEq, Repr

abbrev Request.Reply : Request → Type
  | .domain => Domain
  | .read .. => Value
  | .write .. => Unit
  | .allocate .. => InstanceNo
  | .invoke .. => Value
  | .invokeSuper .. => Value

/-- A computation of the host that may ask the engine. -/
inductive Program (α : Type) where
  | done (value : α)
  /-- The body fails for a reason of its own. -/
  | fail (cause : String)
  /-- The body ends with a fault of the engine. -/
  | raise (fault : Fault)
  | ask (request : Request) (resume : Except Fault request.Reply → Program α)

namespace Program

variable {α β : Type}

def bind (next : α → Program β) : Program α → Program β
  | .done value => next value
  | .fail cause => .fail cause
  | .raise fault => .raise fault
  | .ask request resume => .ask request fun reply => bind next (resume reply)

instance : Monad Program where
  pure := .done
  bind program next := program.bind next

/-- Ask, and hand a fault of the engine back to the program. -/
def attempt (request : Request) : Program (Except Fault request.Reply) :=
  .ask request .done

/-- Ask, and end with the engine's fault if there is one. -/
def request (request : Request) : Program request.Reply :=
  .ask request fun
    | .ok reply => .done reply
    | .error fault => .raise fault

/-- A value that must be there, or the failure with the given cause. -/
def orFail (cause : String) : Option α → Program α
  | some value => .done value
  | none => .fail cause

end Program

end Lineage.Native

namespace Lineage

/-- A method body that the host provides. -/
abbrev Native := Native.View → List Value → Native.Program Value

end Lineage
