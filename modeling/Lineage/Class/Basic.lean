import Lineage.AssocMap
import Lineage.Definition.Basic
import Lineage.Fault

/-!
# Classes

A class that has been defined: its identity, its place below its parent, the
members that it declares itself, and the layout of its instances.  A layout
lists the slots of the root ancestor first and those of the class itself last,
so the slots of an ancestor keep their positions in every descendant.
-/

set_option autoImplicit false

namespace Lineage

/-- The identity of a class: the table that defined it and its position there. -/
structure ClassId where
  table : Nat
  index : Nat
  deriving DecidableEq, Repr, Inhabited

def ClassId.text (id : ClassId) : String :=
  "class #" ++ toString id.index ++ " of table " ++ toString id.table

/-- A method together with the class that declares it. -/
structure Method where
  owner : ClassId
  signature : Signature
  body : Body

/-- One place of an instance, with the class whose field it holds. -/
structure Slot where
  name : String
  declaredBy : ClassId
  initial : Literal
  deriving DecidableEq, Repr

/-- The slots of an instance and, for every field name, the position of its
nearest declaration. -/
structure Layout where
  slots : List Slot := []
  index : AssocMap String Nat := .empty
  deriving Repr

namespace Layout

/-- One more slot at the end.  It hides an earlier slot of the same name. -/
def add (layout : Layout) (owner : ClassId) (field : FieldDecl) : Layout :=
  { slots := layout.slots ++ [⟨field.name, owner, field.initial⟩]
    index := layout.index.insert field.name layout.slots.length }

/-- The layout of a class that declares the given fields below this layout. -/
def extend (layout : Layout) (owner : ClassId) (fields : List FieldDecl) : Layout :=
  fields.foldl (fun reached field => reached.add owner field) layout

def slotOf? (layout : Layout) (field : String) : Option Nat :=
  layout.index.find? field

@[simp] theorem slotOf?_empty (field : String) : slotOf? {} field = none := rfl

theorem slotOf?_add (layout : Layout) (owner : ClassId) (decl : FieldDecl) (field : String) :
    (layout.add owner decl).slotOf? field =
      if field = decl.name then some layout.slots.length else layout.slotOf? field :=
  AssocMap.find?_insert layout.index decl.name field layout.slots.length

@[simp] theorem slots_extend (layout : Layout) (owner : ClassId) (fields : List FieldDecl) :
    (layout.extend owner fields).slots =
      layout.slots ++ fields.map fun field => ⟨field.name, owner, field.initial⟩ := by
  induction fields generalizing layout with
  | nil => simp [extend]
  | cons field rest ih =>
      rw [extend, List.foldl_cons, ← extend, ih]
      simp [add]

end Layout

structure Class where
  id : ClassId
  name : String
  parent : Option ClassId
  /-- The number of proper ancestors. -/
  depth : Nat
  /-- The fields that this class declares itself, in order. -/
  fields : List FieldDecl
  methods : List Method
  layout : Layout

namespace Class

def ofDecl (id : ClassId) (parent : Option Class) (decl : ClassDecl) : Class where
  id := id
  name := decl.name
  parent := parent.map (·.id)
  depth := parent.elim 0 (·.depth + 1)
  fields := decl.fields
  methods := decl.methods.map fun method => ⟨id, method.signature, method.body⟩
  layout := (parent.elim {} (·.layout)).extend id decl.fields

def slots (cls : Class) : List Slot := cls.layout.slots

def slotOf? (cls : Class) (field : String) : Option Nat := cls.layout.slotOf? field

/-- Whether this very class declares the method. -/
def declares (cls : Class) (signature : Signature) : Bool :=
  cls.methods.any fun method => method.signature = signature

end Class

end Lineage
