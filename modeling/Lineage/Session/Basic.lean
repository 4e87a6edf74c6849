import Lineage.Dispatcher.Call

/-!
# Sessions

A session holds everything that a host has made: class tables, stores, instances
kept outside of stores, dispatchers and references.  Each kind has handles of its
own, counted from 1 in the order of creation.  A table is open to definitions
until it is closed; its handle stays the same, and is also its tag.
-/

set_option autoImplicit false

namespace Lineage

abbrev Handle := Nat

inductive TableState where
  | opened (classes : ClassTable)
  | closed (hierarchy : Hierarchy)
  /-- The definitions that should have made it were refused. -/
  | failed

/-- A dispatcher over a closed table and a store of the session. -/
structure Attachment where
  table : Handle
  store : Handle
  options : Options
  deriving DecidableEq, Repr

structure Session where
  tables : Array TableState := #[]
  stores : Array Store := #[]
  instances : Array Instance := #[]
  dispatchers : Array Attachment := #[]
  references : Array Reference := #[]

/-- Why a request has no answer. -/
inductive Refusal where
  /-- A handle stands for nothing, or for a thing in another state. -/
  | dangling
  | failed (failure : Failure)
  deriving DecidableEq, Repr

abbrev Reply (α : Type) := Except Refusal α

def Reply.ofOutcome {α : Type} : Outcome α → Reply α
  | .ok value => .ok value
  | .error failure => .error (.failed failure)

/-- A class named within a table of the session. -/
structure ClassRef where
  table : Handle
  name : String
  deriving DecidableEq, Repr

namespace Session

def empty : Session := {}

def held {α : Type} (things : Array α) : Handle → Reply α
  | 0 => .error .dangling
  | index + 1 =>
      match things[index]? with
      | some thing => .ok thing
      | none => .error .dangling

/-- Let a handle stand for something else. -/
def rebind {α : Type} (things : Array α) (handle : Handle) (thing : α) : Array α :=
  match handle with
  | 0 => things
  | index + 1 => things.setIfInBounds index thing

/-- The class table of a handle, open or closed. -/
def classes (session : Session) (handle : Handle) : Reply ClassTable := do
  match ← held session.tables handle with
  | .opened classes => return classes
  | .closed hierarchy => return hierarchy.classes
  | .failed => .error .dangling

def openedTable (session : Session) (handle : Handle) : Reply ClassTable := do
  match ← held session.tables handle with
  | .opened classes => return classes
  | _ => .error .dangling

def hierarchy (session : Session) (handle : Handle) : Reply Hierarchy := do
  match ← held session.tables handle with
  | .closed hierarchy => return hierarchy
  | _ => .error .dangling

def findClass (session : Session) (ref : ClassRef) : Reply Class := do
  let classes ← session.classes ref.table
  Reply.ofOutcome (classes.lookup ref.name)

/-- The dispatcher of a handle, and the handle of its store. -/
def dispatcher (session : Session) (handle : Handle) : Reply (Dispatcher × Handle) := do
  let attachment ← held session.dispatchers handle
  let hierarchy ← session.hierarchy attachment.table
  return (⟨hierarchy, attachment.options⟩, attachment.store)

end Session

end Lineage
