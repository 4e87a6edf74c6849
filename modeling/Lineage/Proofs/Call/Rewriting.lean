import Lineage.Proofs.Call.Steps
import Lineage.Proofs.Hierarchy.Rewriting

/-!
# Calls under other bodies

The steps of a call look at classes, at fields and at what is resolved, never at bodies.
So through a dispatcher whose hierarchy has its bodies rewritten every step is the same
one, and look-ups end with the same method, rewritten.
-/

set_option autoImplicit false

namespace Lineage

variable (change : Rewriting)

theorem Hierarchy.inheritedMethod_rewrite (hierarchy : Hierarchy) (owner : ClassId)
    (signature : Signature) :
    (hierarchy.rewrite change).inheritedMethod owner signature =
      (hierarchy.inheritedMethod owner signature).map (Method.rewrite change) := by
  unfold inheritedMethod
  rw [classes_rewrite, ClassTable.classAt_rewrite]
  refine Outcome.map_bind_map _ ?_
  intro declaring
  have sameParent : (declaring.rewrite change).parent = declaring.parent := rfl
  rw [sameParent]
  cases declaring.parent with
  | none => rfl
  | some parent => exact hierarchy.resolve_rewrite change parent signature

theorem Hierarchy.permits_rewrite (hierarchy : Hierarchy) (staticType : ClassId)
    (signature : Signature) :
    (hierarchy.rewrite change).permits staticType signature =
      hierarchy.permits staticType signature := by
  rw [permits_eq_map, permits_eq_map, resolve_rewrite]
  cases hierarchy.resolve staticType signature <;> rfl

namespace Dispatcher

variable (dispatcher : Dispatcher)

def rewrite : Dispatcher := { dispatcher with hierarchy := dispatcher.hierarchy.rewrite change }

@[simp] theorem hierarchy_rewrite :
    (dispatcher.rewrite change).hierarchy = dispatcher.hierarchy.rewrite change := rfl

theorem classOf_rewrite (target : InstanceNo) :
    (dispatcher.rewrite change).classOf target = dispatcher.classOf target := by
  unfold classOf
  refine bind_congr fun id => ?_
  rw [hierarchy_rewrite, Hierarchy.classes_rewrite, ClassTable.get_rewrite]
  cases dispatcher.hierarchy.classes.get id <;> rfl

theorem read_rewrite (target : InstanceNo) (field : String) :
    (dispatcher.rewrite change).read target field = dispatcher.read target field := by
  unfold read
  congr 1
  funext store
  unfold Store.read
  refine bind_congr fun inst => ?_
  rw [hierarchy_rewrite, Hierarchy.classes_rewrite, ClassTable.get_rewrite]
  cases dispatcher.hierarchy.classes.get inst.cls <;> rfl

theorem write_rewrite (target : InstanceNo) (field : String) (value : Value) :
    (dispatcher.rewrite change).write target field value =
      dispatcher.write target field value := by
  unfold write
  congr 1
  funext store
  unfold Store.write
  refine bind_congr fun inst => ?_
  rw [hierarchy_rewrite, Hierarchy.classes_rewrite, ClassTable.get_rewrite]
  cases dispatcher.hierarchy.classes.get inst.cls <;> rfl

theorem allocate_rewrite (cls : String) (domain : Domain) :
    (dispatcher.rewrite change).allocate cls domain = dispatcher.allocate cls domain := by
  unfold allocate Action.allocateNamed
  rw [hierarchy_rewrite, Hierarchy.classes_rewrite, ClassTable.lookup_rewrite]
  cases dispatcher.hierarchy.classes.lookup cls <;> rfl

theorem allocateFor_rewrite (receiver : InstanceNo) (cls : String) (domain : Option Domain) :
    (dispatcher.rewrite change).allocateFor receiver cls domain =
      dispatcher.allocateFor receiver cls domain := by
  cases domain with
  | some domain => exact dispatcher.allocate_rewrite change cls domain
  | none => exact bind_congr fun domain => dispatcher.allocate_rewrite change cls domain

theorem announced_rewrite (receiver : InstanceNo) (id : ClassId) (method : Method)
    (depth : Nat) :
    (dispatcher.rewrite change).announced receiver id (method.rewrite change) depth =
      dispatcher.announced receiver id method depth := by
  have sameOwner : (method.rewrite change).owner = method.owner := rfl
  unfold announced
  simp only [sameOwner, hierarchy_rewrite, Hierarchy.classes_rewrite,
    ClassTable.classAt_rewrite]
  cases dispatcher.hierarchy.classes.classAt id with
  | error failure => rfl
  | ok cls => cases dispatcher.hierarchy.classes.classAt method.owner <;> rfl

end Dispatcher

end Lineage
