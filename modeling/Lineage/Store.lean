import Lineage.Instance
import Lineage.Class.Table

/-!
# Stores

A store numbers its instances from 1 in the order of their allocation and never
gives a number out again.  An instance lives until it is released; nothing else
ends its life.  One store may hold instances of several tables.
-/

set_option autoImplicit false

namespace Lineage

/-- Instance `n + 1` is in cell `n`; the cell of a released instance is empty. -/
structure Store where
  cells : Array (Option Instance) := #[]
  deriving DecidableEq, Repr

namespace Store

def empty : Store := {}

/-- The number that the next allocation takes. -/
def next (store : Store) : InstanceNo := store.cells.size + 1

def find? (store : Store) : InstanceNo → Option Instance
  | 0 => none
  | cell + 1 => store.cells[cell]?.join

def contains (store : Store) (id : InstanceNo) : Bool := (store.find? id).isSome

def size (store : Store) : Nat := store.cells.countP Option.isSome

/-- The live instance of a number, or the fault that there is none. -/
def get (store : Store) (id : InstanceNo) : Outcome Instance :=
  match store.find? id with
  | some inst => .ok inst
  | none => refuse (.unknownInstance id)

/-- Change what a number stands for, if it has been given out. -/
def put (store : Store) (id : InstanceNo) (content : Option Instance) : Store :=
  match id with
  | 0 => store
  | cell + 1 => { store with cells := store.cells.setIfInBounds cell content }

def allocate (store : Store) (cls : Class) (domain : Domain) : Store :=
  { store with cells := store.cells.push (some (.ofClass cls domain)) }

def classOf (store : Store) (id : InstanceNo) : Outcome ClassId :=
  (store.get id).map (·.cls)

def domainOf (store : Store) (id : InstanceNo) : Outcome Domain :=
  (store.get id).map (·.domain)

/-- Read a field; the nearest declaration from the exact class counts. -/
def read (store : Store) (classes : ClassTable) (id : InstanceNo) (field : String) :
    Outcome Value := do
  let inst ← store.get id
  inst.read (← classes.get inst.cls) field

def write (store : Store) (classes : ClassTable) (id : InstanceNo) (field : String)
    (value : Value) : Outcome Store := do
  let inst ← store.get id
  let changed ← inst.write (← classes.get inst.cls) field value
  return store.put id (some changed)

/-- Read the field that an ancestor sees, also where a descendant hides it. -/
def readDeclared (store : Store) (classes : ClassTable) (id : InstanceNo)
    (declaring field : String) : Outcome Value := do
  let view ← classes.lookup declaring
  let inst ← store.get id
  let exact ← classes.get inst.cls
  if ← classes.isSubclassOf exact.id view.id then
    inst.read view field
  else refuse (.incompatibleStaticType exact.name view.name)

def release (store : Store) (id : InstanceNo) : Outcome (Instance × Store) := do
  let inst ← store.get id
  return (inst, store.put id none)

/-- The live instances whose numbers are at most `last`, in ascending order. -/
def upTo (store : Store) (last : Nat) : List (InstanceNo × Instance) :=
  (List.range last).filterMap fun cell =>
    (store.find? (cell + 1)).map fun inst => (cell + 1, inst)

/-! ## What a number stands for after each change -/

@[simp] theorem find?_empty (id : InstanceNo) : empty.find? id = none := by
  cases id <;> simp [find?, empty]

@[simp] theorem next_allocate (store : Store) (cls : Class) (domain : Domain) :
    (store.allocate cls domain).next = store.next + 1 := by
  simp [next, allocate]

@[simp] theorem next_put (store : Store) (id : InstanceNo) (content : Option Instance) :
    (store.put id content).next = store.next := by
  cases id <;> simp [next, put]

/-- No number from the next one on stands for anything. -/
theorem find?_eq_none_of_next_le (store : Store) (id : InstanceNo) (fresh : store.next ≤ id) :
    store.find? id = none := by
  cases id with
  | zero => rfl
  | succ cell =>
      have outside : store.cells.size ≤ cell := Nat.le_of_succ_le_succ fresh
      simp [find?, outside]

/-- An allocation gives the next number a new instance and touches no other. -/
theorem find?_allocate (store : Store) (cls : Class) (domain : Domain) (id : InstanceNo) :
    (store.allocate cls domain).find? id =
      if id = store.next then some (.ofClass cls domain) else store.find? id := by
  cases id with
  | zero => simp [find?, next]
  | succ cell =>
      simp only [find?, allocate, next, Array.getElem?_push]
      by_cases here : cell = store.cells.size <;> simp [here]

/-- A change of a number that was given out touches no other. -/
theorem find?_put (store : Store) (id other : InstanceNo) (content : Option Instance)
    (positive : 0 < id) (given : id < store.next) :
    (store.put id content).find? other = if other = id then content else store.find? other := by
  cases id with
  | zero => exact absurd positive (Nat.lt_irrefl 0)
  | succ cell =>
      have inside : cell < store.cells.size := Nat.lt_of_succ_lt_succ given
      cases other with
      | zero => simp [find?]
      | succ wanted =>
          simp only [find?, put, Array.getElem?_setIfInBounds]
          by_cases here : cell = wanted
          · simp [here, here ▸ inside]
          · simp [here, Ne.symm here]

end Store

end Lineage
