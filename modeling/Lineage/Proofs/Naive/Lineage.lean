import Mathlib.Data.List.Forall2
import Lineage.Proofs.Hierarchy.Nearest
import Lineage.Proofs.Naive.Interpreter
import Lineage.Proofs.Table.Layout

/-!
# Chains and lines of definitions

The chain of a class and the definitions that are met by following the names of
parents correspond one to one (`made_lineage`).  So what is found first on the one
is found first on the other: methods, owners of fields and ancestors.
-/

set_option autoImplicit false

namespace Lineage.Naive

variable {table : ClassTable} {decls : List ClassDecl} {cls : Class} {chain : List Class}

/-- The table holds the class as it was made from the definition. -/
structure Made (table : ClassTable) (cls : Class) (decl : ClassDecl) : Prop where
  found : table.find? cls.id = some cls
  placed : ∃ parent, table.Placed cls.id.index decl parent cls

namespace Made

variable {decl : ClassDecl}

theorem name (made : Made table cls decl) : cls.name = decl.name := by
  obtain ⟨parent, placed⟩ := made.placed
  exact placed.name_eq

theorem fields (made : Made table cls decl) : cls.fields = decl.fields := by
  obtain ⟨parent, placed⟩ := made.placed
  exact placed.fields_eq

theorem methods (made : Made table cls decl) :
    cls.methods = decl.methods.map fun method => ⟨cls.id, method.signature, method.body⟩ := by
  obtain ⟨parent, placed⟩ := made.placed
  exact placed.methods_eq

theorem root (made : Made table cls decl) (isRoot : cls.parent = none) : decl.parent = none := by
  obtain ⟨parent, placed⟩ := made.placed
  cases parent with
  | none => exact placed.parentName
  | some upper =>
      rw [placed.made] at isRoot
      cases isRoot

theorem parent (made : Made table cls decl) {id : ClassId} (inherits : cls.parent = some id) :
    ∃ upper, table.find? id = some upper ∧ decl.parent = some upper.name := by
  obtain ⟨parent, placed⟩ := made.placed
  cases parent with
  | none =>
      rw [placed.made] at inherits
      cases inherits
  | some upper =>
      have sameId : upper.id = id := by
        rw [placed.made] at inherits
        exact Option.some.inj inherits
      exact ⟨upper, sameId ▸ (placed.parentFound upper rfl).1, placed.parentName⟩

end Made

/-! ## Definitions by name -/

theorem name_of_define? {name : String} {decl : ClassDecl}
    (defined : define? decls name = some decl) : decl.name = name := by
  simpa using List.find?_some defined

/-- The class that was made from the definition at a place. -/
theorem exists_made_of_getElem? (holds : table.Holds decls) {index : Nat} {decl : ClassDecl}
    (listed : decls[index]? = some decl) : ∃ cls, Made table cls decl ∧ cls.id.index = index := by
  obtain ⟨cls, parent, found, placed⟩ := holds.exists_placed listed
  have position : cls.id.index = index := by rw [placed.id_eq]
  exact ⟨cls, ⟨placed.id_eq ▸ found, parent, position ▸ placed⟩, position⟩

theorem exists_made_of_define? (holds : table.Holds decls) {name : String} {decl : ClassDecl}
    (defined : define? decls name = some decl) :
    ∃ cls, table.names.find? name = some cls.id ∧ cls.name = name ∧ Made table cls decl := by
  obtain ⟨index, listed⟩ := List.mem_iff_getElem?.mp (List.mem_of_find?_eq_some defined)
  obtain ⟨cls, made, _⟩ := exists_made_of_getElem? holds listed
  have ownName := made.name.trans (name_of_define? defined)
  exact ⟨cls, (holds.named name _).mpr ⟨_, made.found, ownName⟩, ownName, made⟩

theorem exists_define? (holds : table.Holds decls) (found : table.find? cls.id = some cls) :
    ∃ decl, define? decls cls.name = some decl ∧ Made table cls decl := by
  obtain ⟨source, parent, listed, placed⟩ := holds.placed_of_find? found
  have sourceName : source.name = cls.name := by rw [placed.made]; rfl
  cases defined : define? decls cls.name with
  | none =>
      have unnamed := List.find?_eq_none.mp defined source (List.mem_of_getElem? listed)
      simp [sourceName] at unnamed
  | some decl =>
      obtain ⟨other, _, otherName, made⟩ := exists_made_of_define? holds defined
      have sameClass := holds.eq_of_name_eq made.found found otherName
      subst sameClass
      exact ⟨decl, rfl, made⟩

theorem define?_eq_none (holds : table.Holds decls) {name : String}
    (unnamed : table.names.find? name = none) : define? decls name = none := by
  cases defined : define? decls name with
  | none => rfl
  | some decl =>
      obtain ⟨cls, named, _⟩ := exists_made_of_define? holds defined
      rw [unnamed] at named
      cases named

/-! ## The whole line -/

theorem made_climb (holds : table.Holds decls) (chained : table.Chain cls chain)
    (found : table.find? cls.id = some cls) (steps : Nat) (enough : chain.length ≤ steps) :
    List.Forall₂ (Made table) chain (climb decls steps cls.name) := by
  induction chained generalizing steps with
  | root isRoot =>
      obtain ⟨decl, defined, made⟩ := exists_define? holds found
      cases steps with
      | zero => simp at enough
      | succ steps =>
          simp only [climb, defined, made.root isRoot]
          exact .cons made .nil
  | under inherits upperFound above ih =>
      obtain ⟨decl, defined, made⟩ := exists_define? holds found
      obtain ⟨known, same, parentName⟩ := made.parent inherits
      have sameClass := Option.some.inj (upperFound.symm.trans same)
      subst sameClass
      cases steps with
      | zero => simp at enough
      | succ steps =>
          have upperOwn := (holds.above_of_find? found inherits upperFound).1
          have further := ih upperOwn steps (by simpa using enough)
          simp only [climb, defined, parentName]
          exact .cons made further

theorem made_lineage (holds : table.Holds decls) (chained : table.Chain cls chain)
    (found : table.find? cls.id = some cls) :
    List.Forall₂ (Made table) chain (lineage decls cls.name) := by
  have bound := chained.length_le holds found
  have inside := table.find?_index_lt found
  have size := holds.size
  exact made_climb holds chained found decls.length (by omega)

/-! ## What is found first -/

theorem rel_find? {α β : Type} {R : α → β → Prop} {xs : List α} {ys : List β}
    {p : α → Bool} {q : β → Bool} (related : List.Forall₂ R xs ys)
    (alike : ∀ x y, R x y → p x = q y) : Option.Rel R (xs.find? p) (ys.find? q) := by
  induction related with
  | nil => exact .none
  | @cons x y xs ys head _ ih =>
      rw [List.find?_cons, List.find?_cons, ← alike x y head]
      cases p x with
      | true => exact .some head
      | false => exact ih

theorem rel_findSome? {α β γ δ : Type} {R : α → β → Prop} {S : γ → δ → Prop} {xs : List α}
    {ys : List β} {f : α → Option γ} {g : β → Option δ} (related : List.Forall₂ R xs ys)
    (alike : ∀ x y, R x y → Option.Rel S (f x) (g y)) :
    Option.Rel S (xs.findSome? f) (ys.findSome? g) := by
  induction related with
  | nil => exact .none
  | @cons x y xs ys head _ ih =>
      have first := alike x y head
      rw [List.findSome?_cons, List.findSome?_cons]
      revert first
      cases f x <;> cases g y <;> intro first <;> cases first
      · exact ih
      · exact .some (by assumption)

/-- The method that the engine runs where the interpreter runs the one it found. -/
def Runs (table : ClassTable) (method : Method) (found : Found) : Prop :=
  ∃ cls, Made table cls found.owner ∧ found.method ∈ found.owner.methods ∧
    method = ⟨cls.id, found.method.signature, found.method.body⟩

theorem rel_ownMethod? {decl : ClassDecl} (made : Made table cls decl) (signature : Signature) :
    Option.Rel (Runs table) (cls.method? signature) (ownMethod? signature decl) := by
  rw [Class.method?, made.methods, List.find?_map, ownMethod?]
  simp only [Function.comp_def]
  cases declared : decl.methods.find? fun method => method.signature = signature with
  | none => exact .none
  | some method => exact .some ⟨cls, made, List.mem_of_find?_eq_some declared, rfl⟩

theorem rel_method? (holds : table.Holds decls) (chained : table.Chain cls chain)
    (found : table.find? cls.id = some cls) (signature : Signature) :
    Option.Rel (Runs table) (nearest chain signature) (method? decls cls.name signature) := by
  apply rel_findSome? (made_lineage holds chained found)
  intro upper decl made
  exact rel_ownMethod? made signature

theorem owner?_cases (holds : table.Holds decls) (chained : table.Chain cls chain)
    (found : table.find? cls.id = some cls) (field : String) :
    (chain.find? (·.declaresField field) = none ∧ owner? decls cls.name field = none) ∨
      ∃ owner, chain.find? (·.declaresField field) = some owner ∧
        owner? decls cls.name field = some owner.name := by
  have alike : ∀ upper decl, Made table upper decl → upper.declaresField field =
      decl.fields.any fun declared => declared.name = field := by
    intro upper decl made
    rw [Class.declaresField, made.fields]
  have related := rel_find? (made_lineage holds chained found) alike
  rw [owner?]
  generalize chain.find? (·.declaresField field) = first at related ⊢
  generalize (lineage decls cls.name).find? (fun decl =>
    decl.fields.any fun declared => declared.name = field) = firstDecl at related ⊢
  cases related with
  | none => exact Or.inl ⟨rfl, rfl⟩
  | @some owner decl made => exact Or.inr ⟨owner, rfl, congrArg some made.name.symm⟩

theorem isBelow_eq (holds : table.Holds decls) (chained : table.Chain cls chain)
    (found : table.find? cls.id = some cls) {upper : Class}
    (upperFound : table.find? upper.id = some upper) :
    isBelow decls cls.name upper.name = decide (upper.id ∈ chain.map (·.id)) := by
  have corresponds := made_lineage holds chained found
  rw [isBelow]
  generalize lineage decls cls.name = line at corresponds ⊢
  clear chained
  induction corresponds with
  | nil => rfl
  | @cons first decl rest line made _ ih =>
      have sameHead : decl.name = upper.name ↔ upper.id = first.id := by
        rw [← made.name]
        constructor
        · intro sameName
          rw [holds.eq_of_name_eq made.found upperFound sameName]
        · intro sameId
          have sameClass : some upper = some first := by rw [← upperFound, sameId, made.found]
          rw [Option.some.inj sameClass]
      simp [sameHead, ih]

end Lineage.Naive
