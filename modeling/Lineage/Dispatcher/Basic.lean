import Lineage.Action
import Lineage.Hierarchy
import Lineage.Options

/-!
# Dispatchers

A dispatcher joins a closed hierarchy with options and works on whatever store
it is run against.  It reads and writes instances of its own hierarchy only, and
it resolves every call on the receiver's exact class.
-/

set_option autoImplicit false

namespace Lineage

/-- A hierarchy with the options under which its methods run. -/
structure Dispatcher where
  hierarchy : Hierarchy
  options : Options := {}

/-- How a resolved method is run: on a receiver of a given exact class, with
arguments. -/
abbrev Enter := InstanceNo → ClassId → Method → List Value → Action Value

namespace Dispatcher

/-- The exact class of an instance, which has to be of this hierarchy. -/
def classOf (dispatcher : Dispatcher) (target : InstanceNo) : Action ClassId := do
  let id ← Action.query fun store => store.classOf target
  let cls ← Action.lift (dispatcher.hierarchy.classes.get id)
  return cls.id

def read (dispatcher : Dispatcher) (target : InstanceNo) (field : String) : Action Value :=
  Action.query fun store => store.read dispatcher.hierarchy.classes target field

def write (dispatcher : Dispatcher) (target : InstanceNo) (field : String) (value : Value) :
    Action Unit :=
  Action.update fun store => store.write dispatcher.hierarchy.classes target field value

def allocate (dispatcher : Dispatcher) (cls : String) (domain : Domain) : Action InstanceNo :=
  Action.allocateNamed dispatcher.hierarchy.classes cls domain

/-- Resolve a signature on the receiver's exact class and run what is found. -/
def dispatch (dispatcher : Dispatcher) (enter : Enter) (receiver : InstanceNo)
    (signature : Signature) (args : List Value) : Action Value := do
  let cls ← dispatcher.classOf receiver
  let method ← Action.lift (dispatcher.hierarchy.resolve cls signature)
  enter receiver cls method args

end Dispatcher

end Lineage
