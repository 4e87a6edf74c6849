import Lineage.Class.Basic

/-!
# Instances

An instance has an exact class, a domain tag and one value per slot of its
class's layout.  Fields are reached through the view of a class: because slots
of an ancestor keep their positions, an ancestor's view finds its own fields in
an instance of any descendant.
-/

set_option autoImplicit false

namespace Lineage

structure Instance where
  cls : ClassId
  domain : Domain
  slots : List Value
  deriving DecidableEq, Repr

namespace Instance

/-- A new instance, with every slot at its initial value. -/
def ofClass (cls : Class) (domain : Domain) : Instance where
  cls := cls.id
  domain := domain
  slots := cls.slots.map (·.initial.value)

/-- The position that a field has in the view of a class of the same table. -/
def position (inst : Instance) (view : Class) (field : String) : Outcome Nat :=
  if view.id.table = inst.cls.table then
    match view.slotOf? field with
    | some slot =>
        if slot < inst.slots.length then .ok slot
        else refuse (.unknownField view.name field)
    | none => refuse (.unknownField view.name field)
  else refuse (.unknownClass view.name)

/-- The field as the given class sees it. -/
def read (inst : Instance) (view : Class) (field : String) : Outcome Value := do
  let slot ← inst.position view field
  match inst.slots[slot]? with
  | some value => return value
  | none => .error .breach

def write (inst : Instance) (view : Class) (field : String) (value : Value) :
    Outcome Instance := do
  let slot ← inst.position view field
  return { inst with slots := inst.slots.set slot value }

end Instance

end Lineage
