import Lineage.Frame

/-!
# Calls

Calls from the host.  Which method runs is decided by the receiver's exact class
alone; the static type of a reference only decides whether a call is legal.  The
nesting of calls is limited, so every call ends.
-/

set_option autoImplicit false

namespace Lineage

/-- An instance as seen through a class. -/
structure Reference where
  target : InstanceNo
  staticType : ClassId
  deriving DecidableEq, Repr

namespace Dispatcher

/-- The level at which dispatches are reported. -/
def dispatchLevel (dispatcher : Dispatcher) : Level :=
  if dispatcher.options.traceCalls then .debug else .trace

/-- Run a resolved method while `remaining` levels of nesting are left. -/
def run (dispatcher : Dispatcher) : (remaining : Nat) → Enter
  | 0, _, _, _, _ => Action.raise (.callDepthExceeded dispatcher.options.maxCallDepth)
  | remaining + 1, receiver, id, method, args => do
      let classes := dispatcher.hierarchy.classes
      let depth := dispatcher.options.maxCallDepth - (remaining + 1)
      let cls ← Action.lift (classes.classAt id)
      let owner ← Action.lift (classes.classAt method.owner)
      Action.emit (.dispatched dispatcher.dispatchLevel receiver cls.name method.signature
        owner.name depth)
      let frame : Frame :=
        { dispatcher, enter := dispatcher.run remaining, receiver, method, depth }
      frame.runBody owner.name args

def runHost (dispatcher : Dispatcher) : Enter := dispatcher.run dispatcher.options.maxCallDepth

/-- Refer to an instance through a class, which has to be its own or one of its
ancestors. -/
def reference (dispatcher : Dispatcher) (target : InstanceNo) (staticType : String) :
    Action Reference := do
  let classes := dispatcher.hierarchy.classes
  let staticId ← Action.lift (classes.idOf staticType)
  let exact ← dispatcher.classOf target
  if ← Action.lift (classes.isSubclassOf exact staticId) then
    return ⟨target, staticId⟩
  else
    let exactClass ← Action.lift (classes.classAt exact)
    let staticClass ← Action.lift (classes.classAt staticId)
    Action.raise (.incompatibleStaticType exactClass.name staticClass.name)

def exactReference (dispatcher : Dispatcher) (target : InstanceNo) : Action Reference := do
  let exact ← dispatcher.classOf target
  return ⟨target, exact⟩

/-- Call a method through a reference.  The static type must understand the
signature; the exact class provides the method. -/
def invoke (dispatcher : Dispatcher) (reference : Reference) (signature : Signature)
    (args : List Value) : Action Value := do
  let table ← Action.lift (dispatcher.hierarchy.tableOf reference.staticType)
  if table.contains signature then
    dispatcher.dispatch dispatcher.runHost reference.target signature args
  else Action.lift (dispatcher.hierarchy.noSuchMethod reference.staticType signature)

def call (dispatcher : Dispatcher) (reference : Reference) (method : String)
    (args : List Value) : Action Value :=
  dispatcher.invoke reference ⟨method, args.length⟩ args

/-- Call a method on an instance through its own class. -/
def send (dispatcher : Dispatcher) (target : InstanceNo) (method : String)
    (args : List Value) : Action Value := do
  let reference ← dispatcher.exactReference target
  dispatcher.call reference method args

end Dispatcher

end Lineage
