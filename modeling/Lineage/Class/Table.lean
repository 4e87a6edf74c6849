import Lineage.Class.Basic

/-!
# Class tables

A table takes definitions one by one, each parent before its children.  Classes
are found by name or by identity.  Operations on identities come in two forms:
checked ones refuse an identity of another table, unchecked ones end in a breach
if they are given one.
-/

set_option autoImplicit false

namespace Lineage

/-- The first element that occurred before. -/
def firstRepeated {α : Type} [DecidableEq α] (seen : List α) : List α → Option α
  | [] => none
  | x :: rest => if x ∈ seen then some x else firstRepeated (x :: seen) rest

/-- No class may declare a field name or a signature twice.  Fields are checked
first. -/
def ClassDecl.checkMembers (decl : ClassDecl) : Outcome Unit :=
  match firstRepeated [] (decl.fields.map (·.name)) with
  | some field => refuse (.duplicateMember decl.name field)
  | none =>
      match firstRepeated [] (decl.methods.map (·.signature)) with
      | some signature => refuse (.duplicateMember decl.name signature.text)
      | none => .ok ()

structure ClassTable where
  /-- What tells the identities of this table from those of others. -/
  tag : Nat
  classes : Array Class := #[]
  names : AssocMap String ClassId := .empty

namespace ClassTable

def empty (tag : Nat) : ClassTable := { tag }

def size (table : ClassTable) : Nat := table.classes.size

/-- The class of an identity that this table handed out. -/
def find? (table : ClassTable) (id : ClassId) : Option Class :=
  if id.table = table.tag then table.classes[id.index]? else none

def owns (table : ClassTable) (id : ClassId) : Bool := (table.find? id).isSome

/-- Checked look-up: a foreign identity is an unknown class. -/
def get (table : ClassTable) (id : ClassId) : Outcome Class :=
  match table.find? id with
  | some cls => .ok cls
  | none => refuse (.unknownClass id.text)

/-- Unchecked look-up, for identities that are known to be of this table. -/
def classAt (table : ClassTable) (id : ClassId) : Outcome Class :=
  match table.find? id with
  | some cls => .ok cls
  | none => .error .breach

def idOf (table : ClassTable) (name : String) : Outcome ClassId :=
  match table.names.find? name with
  | some id => .ok id
  | none => refuse (.unknownClass name)

def lookup (table : ClassTable) (name : String) : Outcome Class := do
  table.classAt (← table.idOf name)

/-! ## Definitions -/

/-- A class may neither extend itself nor take a name that is in use. -/
def checkName (table : ClassTable) (decl : ClassDecl) : Outcome Unit :=
  if decl.parent = some decl.name then refuse (.cyclicHierarchy decl.name)
  else if table.names.contains decl.name then refuse (.duplicateClass decl.name)
  else .ok ()

def parentOf (table : ClassTable) (decl : ClassDecl) : Outcome (Option Class) :=
  match decl.parent with
  | none => .ok none
  | some parent =>
      match table.names.find? parent with
      | none => refuse (.unknownParent decl.name parent)
      | some id => (table.classAt id).map some

def push (table : ClassTable) (cls : Class) : ClassTable :=
  { table with
    classes := table.classes.push cls
    names := table.names.insert cls.name cls.id }

/-- Define a class whose parent, if any, is already there.  A definition that is
refused leaves the table as it was. -/
def define (table : ClassTable) (decl : ClassDecl) : Outcome (ClassTable × Class) := do
  table.checkName decl
  let parent ← table.parentOf decl
  decl.checkMembers
  let cls := Class.ofDecl ⟨table.tag, table.size⟩ parent decl
  return (table.push cls, cls)

/-- Define classes in order and stop at the first that is refused. -/
def defineAll (table : ClassTable) : List ClassDecl → ClassTable × Option Failure
  | [] => (table, none)
  | decl :: rest =>
      match table.define decl with
      | .error failure => (table, some failure)
      | .ok (extended, _) => extended.defineAll rest

@[simp] theorem size_push (table : ClassTable) (cls : Class) :
    (table.push cls).size = table.size + 1 := by
  simp [size, push]

/-- A new class does not change what older identities stand for. -/
theorem find?_push (table : ClassTable) (cls : Class) (id : ClassId) :
    (table.push cls).find? id =
      if id = ⟨table.tag, table.size⟩ then some cls else table.find? id := by
  obtain ⟨owner, index⟩ := id
  by_cases here : owner = table.tag
  · by_cases last : index = table.size
    · simp [find?, push, size, here, last]
    · simp only [find?, push, size, here, if_true, Array.getElem?_push, ClassId.mk.injEq,
        true_and] at last ⊢
  · simp [find?, push, here]

/-! ## Ancestors -/

/-- The class and its ancestors, nearest first, within a number of steps. -/
def climb (table : ClassTable) : Nat → ClassId → Outcome (List Class)
  | 0, _ => .error .breach
  | steps + 1, id => do
      let cls ← table.classAt id
      match cls.parent with
      | none => return [cls]
      | some parent => return cls :: (← table.climb steps parent)

/-- The class and its ancestors, nearest first.  Parents come before their
children in the table, so no chain is longer than the table. -/
def ancestors (table : ClassTable) (id : ClassId) : Outcome (List Class) :=
  table.climb table.size id

def up (table : ClassTable) : Nat → ClassId → Outcome (Option Class)
  | 0, id => (table.classAt id).map some
  | steps + 1, id => do
      let cls ← table.classAt id
      match cls.parent with
      | none => return none
      | some parent => table.up steps parent

/-- Whether `ancestor` is the class itself or one of its ancestors.  Only the
class that stands as deep as `ancestor` can be it. -/
def isSubclassOf (table : ClassTable) (id ancestor : ClassId) : Outcome Bool := do
  let target ← table.classAt ancestor
  let cls ← table.classAt id
  if cls.depth < target.depth then return false
  match ← table.up (cls.depth - target.depth) id with
  | none => return false
  | some reached => return reached.id = ancestor

end ClassTable

end Lineage
