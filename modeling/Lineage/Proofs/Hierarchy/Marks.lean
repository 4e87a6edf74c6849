import Lineage.Proofs.Definition.Marks
import Lineage.Proofs.Hierarchy.Rewriting

/-!
# Hierarchies under other domain marks

Changing the marks of `new` nodes is one way of rewriting bodies, the same for every
method.  So changing the marks of the definitions and building a hierarchy
(`build_mapMarks`), or resolving in it (`resolve_mapMarks`), gives what comes of changing
the marks afterwards.
-/

set_option autoImplicit false

namespace Lineage

variable (mark : Option Domain → Option Domain)

/-- Every body with its marks changed. -/
def Rewriting.marks : Rewriting := fun _ _ body => body.mapMarks mark

def MethodDecl.mapMarks (decl : MethodDecl) : MethodDecl :=
  { decl with body := decl.body.mapMarks mark }

/-- The definition with the marks of its bodies changed. -/
def ClassDecl.mapMarks (decl : ClassDecl) : ClassDecl :=
  { decl with methods := decl.methods.map (MethodDecl.mapMarks mark) }

def Class.mapMarks (cls : Class) : Class :=
  { cls with methods := cls.methods.map (Method.mapMarks mark) }

def ClassTable.mapMarks (table : ClassTable) : ClassTable :=
  { table with classes := table.classes.map (Class.mapMarks mark) }

def DispatchTable.mapMarks (table : DispatchTable) : DispatchTable :=
  ⟨table.methods.mapValues (Method.mapMarks mark)⟩

theorem ClassDecl.map_mapMarks (tag : Nat) (decls : List ClassDecl) :
    decls.map (mapMarks mark) = rewriteAll (.marks mark) tag decls := by
  unfold rewriteAll
  apply List.ext_getElem (by rw [List.length_map, List.length_mapIdx])
  intro index inside within
  rw [List.getElem_map, List.getElem_mapIdx]
  rfl

namespace Hierarchy

def mapMarks (hierarchy : Hierarchy) : Hierarchy :=
  ⟨hierarchy.classes.mapMarks mark, hierarchy.tables.map (DispatchTable.mapMarks mark)⟩

/-- Marks can be changed before a hierarchy is built or after. -/
theorem build_mapMarks (tag : Nat) (decls : List ClassDecl) :
    build tag (decls.map (ClassDecl.mapMarks mark)) = (build tag decls).map (mapMarks mark) := by
  rw [ClassDecl.map_mapMarks mark tag, build_rewriteAll]
  rfl

theorem resolve_mapMarks (hierarchy : Hierarchy) (id : ClassId) (signature : Signature) :
    (hierarchy.mapMarks mark).resolve id signature =
      (hierarchy.resolve id signature).map (Method.mapMarks mark) :=
  hierarchy.resolve_rewrite (.marks mark) id signature

end Hierarchy

end Lineage
