import Lineage.Proofs.Naive.Abstraction

/-!
# Portraits of classes

What a hierarchy tells about a class where all classes are meant by name: its
ancestors, its layout and its dispatch table.  The portrait is settled by the line of
definitions that goes up from the class (`portrait_eq`); identities, and with them the
order of definitions, play no part in it.
-/

set_option autoImplicit false

namespace Lineage

structure Portrait where
  /-- The names of the class and its ancestors, nearest first. -/
  ancestors : List String
  depth : Nat
  /-- Of every slot its name, the class that declares it and its default, in order. -/
  slots : List (String × String × Literal)
  slotOf? : String → Option Nat
  /-- Of the method that runs for a signature the class that declares it, its own
  signature and its body. -/
  method? : Signature → Option (String × Signature × Body)

namespace Hierarchy

def portrait (hierarchy : Hierarchy) (name : String) : Outcome Portrait := do
  let classes := hierarchy.classes
  let cls ← classes.lookup name
  let chain ← classes.ancestors cls.id
  let table ← hierarchy.tableOf cls.id
  return {
    ancestors := chain.map (·.name)
    depth := cls.depth
    slots := cls.slots.map fun slot => (slot.name, classes.nameOf slot.declaredBy, slot.initial)
    slotOf? := cls.slotOf?
    method? := fun signature => (table.lookup signature).map fun method =>
      (classes.nameOf method.owner, method.signature, method.body) }

end Hierarchy

namespace Naive

/-- The slots of the topmost definition come first. -/
def slots (line : List ClassDecl) : List (String × String × Literal) :=
  line.reverse.flatMap fun decl => decl.fields.map fun field =>
    (field.name, decl.name, field.initial)

def portrait (line : List ClassDecl) : Portrait where
  ancestors := line.map (·.name)
  depth := line.length - 1
  slots := slots line
  slotOf? field := lastIndex? field ((slots line).map (·.1))
  method? signature := (line.findSome? (ownMethod? signature)).map fun found =>
    (found.owner.name, found.method.signature, found.method.body)

section Line
variable {table : ClassTable} {decls : List ClassDecl} {cls : Class} {chain : List Class}
  {line : List ClassDecl} (corresponds : List.Forall₂ (Made table) chain line)
include corresponds

theorem map_of_made {α : Type} {ofClass : Class → α} {ofDecl : ClassDecl → α}
    (alike : ∀ cls decl, Made table cls decl → ofClass cls = ofDecl decl) :
    chain.map ofClass = line.map ofDecl := by
  induction corresponds with
  | nil => rfl
  | cons made _ ih => rw [List.map_cons, List.map_cons, alike _ _ made, ih]

theorem slots_of_made (holds : table.Holds decls) (chained : table.Chain cls chain)
    (found : table.find? cls.id = some cls) :
    cls.slots.map (fun slot => (slot.name, table.nameOf slot.declaredBy, slot.initial)) =
      slots line := by
  have each : ∀ upper decl, Made table upper decl →
      upper.ownSlots.map (fun slot => (slot.name, table.nameOf slot.declaredBy, slot.initial)) =
        decl.fields.map fun field => (field.name, decl.name, field.initial) := by
    intro upper decl made
    rw [Class.ownSlots, made.fields, List.map_map]
    refine List.map_congr_left fun field _ => ?_
    simp only [Function.comp_apply, ClassTable.nameOf_of_find? made.found, made.name]
  rw [chained.slots_eq holds found, List.map_flatMap, slots, List.flatMap_def, List.flatMap_def,
    List.map_reverse, List.map_reverse, map_of_made corresponds each]

theorem methods_of_made (signature : Signature) :
    (nearest chain signature).map (fun method =>
        (table.nameOf method.owner, method.signature, method.body)) =
      (line.findSome? (ownMethod? signature)).map fun found =>
        (found.owner.name, found.method.signature, found.method.body) := by
  have related : Option.Rel (Runs table) (nearest chain signature)
      (line.findSome? (ownMethod? signature)) :=
    rel_findSome? corresponds fun _ _ made => rel_ownMethod? made signature
  generalize nearest chain signature = first at related ⊢
  generalize line.findSome? (ownMethod? signature) = firstDecl at related ⊢
  cases related with
  | none => rfl
  | some runs =>
      obtain ⟨owner, made, _, rfl⟩ := runs
      simp [ClassTable.nameOf_of_find? made.found, made.name]

end Line

end Naive

namespace Hierarchy

open Naive

/-- The portrait of a class is that of its line of definitions. -/
theorem portrait_eq {hierarchy : Hierarchy} {decls : List ClassDecl} (flat : hierarchy.Flat decls)
    {name : String} {decl : ClassDecl} (defined : define? decls name = some decl) :
    hierarchy.portrait name = .ok (Naive.portrait (lineage decls name)) := by
  have holds := flat.holds
  obtain ⟨cls, named, rfl, made⟩ := exists_made_of_define? holds defined
  obtain ⟨chain, chained⟩ := holds.exists_chain made.found
  obtain ⟨table, isTable, _, flattens⟩ := flat.exists_table made.found chained
  have corresponds := made_lineage holds chained made.found
  have lookup : hierarchy.classes.lookup cls.name = .ok cls := by
    simp [ClassTable.lookup, ClassTable.idOf, named, ClassTable.classAt_of_find? made.found, bind,
      Except.bind]
  have ancestors := map_of_made corresponds fun _ _ made => made.name
  have depth : cls.depth = (lineage decls cls.name).length - 1 := by
    rw [← corresponds.length_eq, chained.length_eq holds made.found]
    rfl
  have slots := slots_of_made corresponds holds chained made.found
  have slotNames : cls.slots.map (·.name) = (Naive.slots (lineage decls cls.name)).map (·.1) := by
    rw [← slots, List.map_map]
    rfl
  have slotOf? : cls.slotOf? = fun field =>
      lastIndex? field ((Naive.slots (lineage decls cls.name)).map (·.1)) := by
    funext field
    rw [Class.slotOf?, chained.indexed holds made.found field, ← slotNames]
    rfl
  have methods : (fun signature => (table.lookup signature).map fun method =>
      (hierarchy.classes.nameOf method.owner, method.signature, method.body)) =
        fun signature => ((lineage decls cls.name).findSome? (ownMethod? signature)).map
          fun found => (found.owner.name, found.method.signature, found.method.body) := by
    funext signature
    rw [flattens.lookup, methods_of_made corresponds]
  simp only [portrait, lookup, chained.ancestors_eq holds made.found, isTable, bind, Except.bind,
    pure, Except.pure, ancestors, depth, slots, slotOf?, methods]
  rfl

end Hierarchy

end Lineage
