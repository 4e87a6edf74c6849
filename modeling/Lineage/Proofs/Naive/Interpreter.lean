import Lineage.AssocMap
import Lineage.Definition.Basic
import Lineage.Fault

/-!
# A naive interpreter

The meaning of definitions without class tables.  A class is its definition and
is known by its name; methods and fields are found by following the names of
parents each time anew, and an object keeps its fields under the name of the
class that declares them.
-/

set_option autoImplicit false

namespace Lineage.Naive

/-! ## Definitions by name -/

def define? (decls : List ClassDecl) (name : String) : Option ClassDecl :=
  decls.find? fun decl => decl.name = name

/-- The definition of a class and of those above it, nearest first, within a
number of steps. -/
def climb (decls : List ClassDecl) : Nat → String → List ClassDecl
  | 0, _ => []
  | steps + 1, name =>
      match define? decls name with
      | none => []
      | some decl =>
          match decl.parent with
          | none => [decl]
          | some parent => decl :: climb decls steps parent

/-- The definition of a class and of all those above it.  A line of parents does
not come back to itself, so as many steps as there are definitions suffice. -/
def lineage (decls : List ClassDecl) (cls : String) : List ClassDecl :=
  climb decls decls.length cls

/-- Whether a class is another one or stands below it. -/
def isBelow (decls : List ClassDecl) (cls ancestor : String) : Bool :=
  (lineage decls cls).any fun decl => decl.name = ancestor

/-- A method with the definition that declares it. -/
structure Found where
  owner : ClassDecl
  method : MethodDecl

def ownMethod? (signature : Signature) (owner : ClassDecl) : Option Found :=
  (owner.methods.find? fun method => method.signature = signature).map fun method =>
    ⟨owner, method⟩

/-- The method of the first class upward that declares the signature. -/
def method? (decls : List ClassDecl) (cls : String) (signature : Signature) : Option Found :=
  (lineage decls cls).findSome? (ownMethod? signature)

/-- The name of the first class upward that declares the field. -/
def owner? (decls : List ClassDecl) (cls field : String) : Option String :=
  ((lineage decls cls).find? fun decl => decl.fields.any fun declared =>
    declared.name = field).map (·.name)

/-! ## Objects -/

/-- A field is known by the class that declares it and by its name. -/
abbrev Key := String × String

structure Object where
  cls : String
  domain : Domain
  fields : AssocMap Key Value

def seed (decl : ClassDecl) : List (Key × Value) :=
  decl.fields.map fun field => ((decl.name, field.name), field.initial.value)

/-- A new object with all fields as they are declared, from the topmost class on. -/
def fresh (decls : List ClassDecl) (cls : String) (domain : Domain) : Object where
  cls := cls
  domain := domain
  fields := ⟨(lineage decls cls).reverse.flatMap seed⟩

@[ext] structure Heap where
  next : InstanceNo
  objects : InstanceNo → Option Object

namespace Heap

def empty : Heap := ⟨1, fun _ => none⟩

def put (heap : Heap) (id : InstanceNo) (content : Option Object) : Heap :=
  { heap with objects := fun other => if other = id then content else heap.objects other }

def add (heap : Heap) (object : Object) : Heap :=
  { heap.put heap.next (some object) with next := heap.next + 1 }

end Heap

/-- A computation on the heap.  What it did before a fault stays done. -/
abbrev Run := ExceptT Fault (StateM Heap)

def Run.on {α : Type} (run : Run α) (heap : Heap) : Except Fault α × Heap :=
  StateT.run (ExceptT.run run) heap

/-- Go on with what was found, or fail. -/
def demand {α : Type} (found : Option α) (cause : Fault) : Run α :=
  match found with
  | some value => pure value
  | none => throw cause

def objectAt (id : InstanceNo) : Run Object := do
  let heap ← get
  demand (heap.objects id) (.unknownInstance id)

def objectOf (value : Value) : Run InstanceNo :=
  demand value.object? (.notAnObject value.kind)

def release (id : InstanceNo) : Run Object := do
  let object ← objectAt id
  modify fun heap => heap.put id none
  return object

/-! ## The interpreter -/

structure Machine where
  decls : List ClassDecl
  maxCallDepth : Nat

abbrev Enter := InstanceNo → Found → List Value → Run Value

namespace Machine

variable (machine : Machine)

def allocate (cls : String) (domain : Domain) : Run InstanceNo := do
  let decl ← demand (define? machine.decls cls) (.unknownClass cls)
  let heap ← get
  set (heap.add (fresh machine.decls decl.name domain))
  return heap.next

/-- Where an object keeps the field that a class sees. -/
def keyOf (view field : String) : Run Key := do
  let owner ← demand (owner? machine.decls view field) (.unknownField view field)
  return (owner, field)

def readAs (object : Object) (view field : String) : Run Value := do
  let key ← machine.keyOf view field
  return (object.fields.find? key).getD .nil

def read (id : InstanceNo) (field : String) : Run Value := do
  let object ← objectAt id
  machine.readAs object object.cls field

def write (id : InstanceNo) (field : String) (value : Value) : Run Unit := do
  let object ← objectAt id
  let key ← machine.keyOf object.cls field
  modify fun heap => heap.put id (some { object with fields := object.fields.insert key value })

def readDeclared (id : InstanceNo) (declaring field : String) : Run Value := do
  let view ← demand (define? machine.decls declaring) (.unknownClass declaring)
  let object ← objectAt id
  if isBelow machine.decls object.cls view.name then machine.readAs object view.name field
  else throw (.incompatibleStaticType object.cls view.name)

def resolve (cls : String) (signature : Signature) : Run Found :=
  demand (method? machine.decls cls signature) (.noSuchMethod cls signature)

def dispatch (enter : Enter) (receiver : InstanceNo) (signature : Signature)
    (args : List Value) : Run Value := do
  let object ← objectAt receiver
  let found ← machine.resolve object.cls signature
  enter receiver found args

end Machine

/-- One running method. -/
structure Frame where
  machine : Machine
  enter : Enter
  receiver : InstanceNo
  found : Found

namespace Frame

variable (frame : Frame)

def allocate (cls : String) : Option Domain → Run InstanceNo
  | some domain => frame.machine.allocate cls domain
  | none => do
      let object ← objectAt frame.receiver
      frame.machine.allocate cls object.domain

/-- The method that the declaring class inherits. -/
def inherited (signature : Signature) : Run Found := do
  let owner := frame.found.owner
  let parent ← demand owner.parent (.noSuchMethod owner.name signature)
  frame.machine.resolve parent signature

def invokeSuper (method : String) (args : List Value) : Run Value := do
  let inherited ← frame.inherited ⟨method, args.length⟩
  let _ ← objectAt frame.receiver
  frame.enter frame.receiver inherited args

mutual

def eval (args : List Value) : Expr → Run Value
  | .lit value => pure value.value
  | .this => pure (.object frame.receiver)
  | .arg index => demand args[index]? (.argumentOutOfRange index frame.found.method.signature)
  | .new cls domain => do
      let id ← frame.allocate cls domain
      return .object id
  | .get target field => do
      let object ← objectOf (← eval args target)
      frame.machine.read object field
  | .set target field value => do
      let object ← objectOf (← eval args target)
      let stored ← eval args value
      frame.machine.write object field stored
      return stored
  | .invoke target method operands => do
      let object ← objectOf (← eval args target)
      let values ← evalAll args operands
      frame.machine.dispatch frame.enter object ⟨method, values.length⟩ values
  | .super method operands => do
      let values ← evalAll args operands
      frame.invokeSuper method values
  | .seq steps => evalLast args .nil steps

def evalAll (args : List Value) : List Expr → Run (List Value)
  | [] => pure []
  | expr :: rest => do
      let value ← eval args expr
      let values ← evalAll args rest
      return value :: values

def evalLast (args : List Value) (last : Value) : List Expr → Run Value
  | [] => pure last
  | expr :: rest => do
      let value ← eval args expr
      evalLast args value rest

end

end Frame

namespace Machine

variable (machine : Machine)

/-- Run a method while some levels of nesting are left.  Bodies that the host
provides have no meaning here. -/
def run : (remaining : Nat) → Enter
  | 0, _, _, _ => throw (.callDepthExceeded machine.maxCallDepth)
  | remaining + 1, receiver, found, args =>
      match found.method.body with
      | .expr body => Frame.eval ⟨machine, run remaining, receiver, found⟩ args body
      | .native _ => throw (.native found.owner.name found.method.signature "not interpreted")

end Machine

/-- An object as seen through a class. -/
structure Reference where
  target : InstanceNo
  staticType : String

def exactReference (id : InstanceNo) : Run Reference := do
  let object ← objectAt id
  return ⟨id, object.cls⟩

namespace Machine

variable (machine : Machine)

def reference (id : InstanceNo) (staticType : String) : Run Reference := do
  let view ← demand (define? machine.decls staticType) (.unknownClass staticType)
  let object ← objectAt id
  if isBelow machine.decls object.cls view.name then return ⟨id, view.name⟩
  else throw (.incompatibleStaticType object.cls view.name)

def invoke (reference : Reference) (signature : Signature) (args : List Value) : Run Value := do
  let _ ← machine.resolve reference.staticType signature
  machine.dispatch (machine.run machine.maxCallDepth) reference.target signature args

end Machine

end Lineage.Naive
