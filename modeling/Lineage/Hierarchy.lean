import Lineage.Class.Table
import Lineage.DispatchTable

/-!
# Hierarchies

A class table that takes no more definitions, with the dispatch table of every
class.  Resolution looks up the exact class of the receiver and nothing else.
-/

set_option autoImplicit false

namespace Lineage

structure Hierarchy where
  classes : ClassTable
  /-- The dispatch table of each class, in the order of definition. -/
  tables : Array DispatchTable

namespace Hierarchy

/-- What a class inherits, taken from the tables that are already there. -/
def inherited (tables : Array DispatchTable) (cls : Class) : Outcome DispatchTable :=
  match cls.parent with
  | none => .ok .empty
  | some parent =>
      match tables[parent.index]? with
      | none => .error .breach
      | some table => .ok table

/-- Add the tables of the given classes, parents before children. -/
def buildTables (tables : Array DispatchTable) :
    List Class → Outcome (Array DispatchTable)
  | [] => .ok tables
  | cls :: rest => do
      let table ← inherited tables cls
      buildTables (tables.push (.build cls table)) rest

def ofTable (classes : ClassTable) : Outcome Hierarchy := do
  let tables ← buildTables #[] classes.classes.toList
  return { classes, tables }

/-- Define all classes in order and close the table.  The first definition that
is refused refuses them all; the table reached until then is given as well. -/
def load (tag : Nat) (decls : List ClassDecl) : ClassTable × Outcome Hierarchy :=
  match (ClassTable.empty tag).defineAll decls with
  | (classes, none) => (classes, ofTable classes)
  | (classes, some failure) => (classes, .error failure)

def build (tag : Nat) (decls : List ClassDecl) : Outcome Hierarchy := (load tag decls).2

def entryCount (hierarchy : Hierarchy) : Nat :=
  hierarchy.tables.foldl (fun total table => total + table.size) 0

def tableAt (hierarchy : Hierarchy) (cls : Class) : Outcome DispatchTable :=
  match hierarchy.tables[cls.id.index]? with
  | some table => .ok table
  | none => .error .breach

/-- Unchecked: the dispatch table of a class of this hierarchy. -/
def dispatchTable (hierarchy : Hierarchy) (id : ClassId) : Outcome DispatchTable := do
  hierarchy.tableAt (← hierarchy.classes.classAt id)

/-- Checked: the dispatch table of a class, or the fault that it is unknown. -/
def tableOf (hierarchy : Hierarchy) (id : ClassId) : Outcome DispatchTable := do
  hierarchy.tableAt (← hierarchy.classes.get id)

def noSuchMethod {α : Type} (hierarchy : Hierarchy) (id : ClassId) (signature : Signature) :
    Outcome α := do
  let cls ← hierarchy.classes.classAt id
  refuse (.noSuchMethod cls.name signature)

/-- The method that runs for a signature on an instance of exactly this class. -/
def resolve (hierarchy : Hierarchy) (id : ClassId) (signature : Signature) :
    Outcome Method := do
  let table ← hierarchy.tableOf id
  match table.lookup signature with
  | some method => return method
  | none => hierarchy.noSuchMethod id signature

end Hierarchy

end Lineage
