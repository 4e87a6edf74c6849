import Lineage.Event
import Lineage.Hierarchy

/-!
# What is reported about definitions

Every class that a table accepts is reported once, and so is every table that is
closed.
-/

set_option autoImplicit false

namespace Lineage

namespace ClassTable

def parentName (table : ClassTable) (cls : Class) : Option String :=
  (cls.parent.bind table.find?).map (·.name)

def definedEvent (table : ClassTable) (cls : Class) : Event :=
  .defined cls.name (table.parentName cls) cls.fields.length cls.slots.length cls.methods.length

end ClassTable

namespace Hierarchy

def closedEvent (hierarchy : Hierarchy) : Event :=
  .closed hierarchy.classes.size hierarchy.entryCount

/-- The reports of a load: all classes that were accepted, and the closing of
the table if the load succeeded. -/
def loadEvents (classes : ClassTable) (result : Outcome Hierarchy) : List Event :=
  classes.classes.toList.map classes.definedEvent ++
    match result with
    | .ok hierarchy => [hierarchy.closedEvent]
    | .error _ => []

end Hierarchy

end Lineage
