import Lineage.Class.Basic

/-!
# Dispatch tables

The methods that one class understands, flattened: what it inherits, overridden
by what it declares itself.
-/

set_option autoImplicit false

namespace Lineage

/-- For every signature the method that runs for it. -/
structure DispatchTable where
  methods : AssocMap Signature Method

namespace DispatchTable

def empty : DispatchTable := ⟨.empty⟩

def size (table : DispatchTable) : Nat := table.methods.size

def lookup (table : DispatchTable) (signature : Signature) : Option Method :=
  table.methods.find? signature

def contains (table : DispatchTable) (signature : Signature) : Bool :=
  table.methods.contains signature

/-- One more method, in place of one of the same signature. -/
def override (table : DispatchTable) (method : Method) : DispatchTable :=
  ⟨table.methods.insert method.signature method⟩

/-- The table of a class, given that of its parent.  A root inherits nothing. -/
def build (cls : Class) (inherited : DispatchTable) : DispatchTable :=
  cls.methods.foldl override inherited

@[simp] theorem lookup_empty (signature : Signature) : empty.lookup signature = none := rfl

theorem lookup_override (table : DispatchTable) (method : Method) (signature : Signature) :
    (table.override method).lookup signature =
      if signature = method.signature then some method else table.lookup signature :=
  AssocMap.find?_insert table.methods method.signature signature method

/-- The signatures in ascending order, each with the class that declares the
method. -/
def owners (table : DispatchTable) : List (Signature × ClassId) :=
  (table.methods.entries.map fun entry => (entry.1, entry.2.owner)).mergeSort
    fun left right => Signature.le left.1 right.1

end DispatchTable

end Lineage
