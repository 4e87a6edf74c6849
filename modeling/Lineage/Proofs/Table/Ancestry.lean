import Lineage.Proofs.Table.Chain
import Mathlib.Logic.Relation
import Mathlib.Order.Defs.Unbundled

/-!
# Ancestry

What the walk upward lists, said by the relation between a class and its parent alone:
`Lists` holds of the class and all its proper ancestors, each once, nearest first and
ending in a root.  In every table that definitions have led to, `ancestors` gives such a
list, and a walk with any bound above the depth of the class gives the same one, so it is
the chain that ends the walk and not the bound.  The subclass test compares one position
of that list; it comes to membership in the list, to one chain being a suffix of the
other, and is a partial order.
-/

set_option autoImplicit false

namespace Lineage.ClassTable

/-- One class is what the other extends. -/
def Parent (table : ClassTable) (lower upper : Class) : Prop :=
  ∃ id, lower.parent = some id ∧ table.find? id = some upper

/-- A class and all its proper ancestors, each once and nearest first. -/
structure Lists (table : ClassTable) (cls : Class) (listed : List Class) : Prop where
  first : listed.head? = some cls
  nearest : listed.IsChain table.Parent
  root : ∃ last, listed.getLast? = some last ∧ last.parent = none
  members : ∀ upper, upper ∈ listed ↔ Relation.ReflTransGen table.Parent cls upper
  once : (listed.map (·.id)).Nodup
  descending : listed.Pairwise fun lower upper =>
    upper.id.index < lower.id.index ∧ upper.depth < lower.depth
  length : listed.length = cls.depth + 1

variable {table : ClassTable} {decls : List ClassDecl}

/-! ## A chain is such a list -/

theorem Chain.isChain {cls : Class} {chain : List Class} (chained : table.Chain cls chain) :
    chain.IsChain table.Parent := by
  induction chained with
  | root isRoot => exact List.IsChain.singleton _
  | under inherits found above ih =>
      obtain ⟨rest, shape⟩ := above.eq_cons
      subst shape
      exact List.isChain_cons_cons.mpr ⟨⟨_, inherits, found⟩, ih⟩

theorem Chain.exists_root {cls : Class} {chain : List Class} (chained : table.Chain cls chain) :
    ∃ last, chain.getLast? = some last ∧ last.parent = none := by
  induction chained with
  | root isRoot => exact ⟨_, rfl, isRoot⟩
  | under inherits found above ih =>
      obtain ⟨last, isLast, isRoot⟩ := ih
      refine ⟨last, ?_, isRoot⟩
      rw [List.getLast?_cons, isLast]
      rfl

theorem Chain.mem_iff {cls : Class} {chain : List Class} (chained : table.Chain cls chain)
    (upper : Class) : upper ∈ chain ↔ Relation.ReflTransGen table.Parent cls upper := by
  induction chained with
  | @root cls isRoot =>
      rw [List.mem_singleton, Relation.ReflTransGen.cases_head_iff]
      constructor
      · exact fun same => .inl same.symm
      · rintro (same | ⟨next, ⟨id, inherits, _⟩, _⟩)
        · exact same.symm
        · rw [isRoot] at inherits
          cases inherits
  | @under cls parent id rest inherits found above ih =>
      rw [List.mem_cons, ih, Relation.ReflTransGen.cases_head_iff (a := cls)]
      constructor
      · rintro (same | further)
        · exact .inl same.symm
        · exact .inr ⟨parent, ⟨id, inherits, found⟩, further⟩
      · rintro (same | ⟨next, ⟨other, otherInherits, otherFound⟩, further⟩)
        · exact .inl same.symm
        · rw [inherits] at otherInherits
          cases otherInherits
          rw [found] at otherFound
          cases otherFound
          exact .inr further

/-- Depths strictly decrease along a chain. -/
theorem Chain.pairwise_depth (holds : table.Holds decls) {cls : Class} {chain : List Class}
    (chained : table.Chain cls chain) (found : table.find? cls.id = some cls) :
    chain.Pairwise (fun lower upper => upper.depth < lower.depth) := by
  induction chained with
  | root isRoot => exact List.pairwise_singleton _ _
  | under inherits upperFound above ih =>
      obtain ⟨upperOwn, _, depth, _⟩ := holds.above_of_find? found inherits upperFound
      refine List.pairwise_cons.mpr ⟨?_, ih upperOwn⟩
      intro member inRest
      have further := (above.getElem?_of_mem holds upperOwn inRest).1
      omega

theorem Chain.lists (holds : table.Holds decls) {cls : Class} {chain : List Class}
    (chained : table.Chain cls chain) (found : table.find? cls.id = some cls) :
    table.Lists cls chain where
  first := by
    obtain ⟨rest, shape⟩ := chained.eq_cons
    rw [shape]
    rfl
  nearest := chained.isChain
  root := chained.exists_root
  members := chained.mem_iff
  once := chained.nodup_ids holds found
  descending := (chained.pairwise_index holds found).and (chained.pairwise_depth holds found)
  length := chained.length_eq holds found

/-! ## The subclass test -/

/-- The chains of the classes in a chain are its suffixes. -/
theorem Chain.suffix_iff_mem {cls upper : Class} {chain above : List Class}
    (chained : table.Chain cls chain) (upperChained : table.Chain upper above) :
    above <:+ chain ↔ upper ∈ chain := by
  constructor
  · exact fun isSuffix => isSuffix.subset upperChained.head_mem
  · intro inChain
    obtain ⟨before, after, split, rest⟩ := chained.exists_of_mem inChain
    rw [split, upperChained.unique rest]
    exact List.suffix_append _ _

theorem Chain.isSubclassOf_iff (holds : table.Holds decls) {id ancestor : ClassId}
    {cls upper : Class} {chain above : List Class} (chained : table.Chain cls chain)
    (upperChained : table.Chain upper above) (found : table.find? id = some cls)
    (upperFound : table.find? ancestor = some upper) :
    table.isSubclassOf id ancestor = .ok true ↔ above <:+ chain := by
  have ownFound : table.find? cls.id = some cls := by rw [holds.id_of_find? found, found]
  rw [chained.isSubclassOf_eq holds found upperFound, chained.suffix_iff_mem upperChained,
    ← chained.id_mem_iff holds ownFound upperFound]
  simp

theorem exists_of_owns {id : ClassId} (owned : table.owns id = true) :
    ∃ cls, table.find? id = some cls :=
  Option.isSome_iff_exists.mp owned

/-- What one chain being a suffix of another says is reflexive, antisymmetric and
transitive on the identities of the table. -/
theorem Holds.isPartialOrder (holds : table.Holds decls) :
    IsPartialOrder {id : ClassId // table.owns id = true}
      fun id ancestor => table.isSubclassOf id.1 ancestor.1 = .ok true where
  refl := by
    rintro ⟨id, owned⟩
    obtain ⟨cls, found⟩ := exists_of_owns owned
    obtain ⟨chain, chained⟩ := holds.exists_chain found
    exact (chained.isSubclassOf_iff holds chained found found).mpr List.suffix_rfl
  antisymm := by
    rintro ⟨id, owned⟩ ⟨ancestor, ancestorOwned⟩ below above
    obtain ⟨cls, found⟩ := exists_of_owns owned
    obtain ⟨upper, upperFound⟩ := exists_of_owns ancestorOwned
    obtain ⟨chain, chained⟩ := holds.exists_chain found
    obtain ⟨other, otherChained⟩ := holds.exists_chain upperFound
    have otherSuffix := (chained.isSubclassOf_iff holds otherChained found upperFound).mp below
    have suffix := (otherChained.isSubclassOf_iff holds chained upperFound found).mp above
    -- two chains that are suffixes of each other start with the same class
    have same : chain = other := suffix.eq_of_length
      (Nat.le_antisymm suffix.length_le otherSuffix.length_le)
    obtain ⟨rest, shape⟩ := chained.eq_cons
    obtain ⟨otherRest, otherShape⟩ := otherChained.eq_cons
    rw [shape, otherShape] at same
    cases same
    exact Subtype.ext ((holds.id_of_find? found).symm.trans (holds.id_of_find? upperFound))
  trans := by
    rintro ⟨id, owned⟩ ⟨middle, middleOwned⟩ ⟨ancestor, ancestorOwned⟩ below further
    obtain ⟨cls, found⟩ := exists_of_owns owned
    obtain ⟨between, betweenFound⟩ := exists_of_owns middleOwned
    obtain ⟨upper, upperFound⟩ := exists_of_owns ancestorOwned
    obtain ⟨chain, chained⟩ := holds.exists_chain found
    obtain ⟨betweenChain, betweenChained⟩ := holds.exists_chain betweenFound
    obtain ⟨other, otherChained⟩ := holds.exists_chain upperFound
    have first := (chained.isSubclassOf_iff holds betweenChained found betweenFound).mp below
    have second :=
      (betweenChained.isSubclassOf_iff holds otherChained betweenFound upperFound).mp further
    exact (chained.isSubclassOf_iff holds otherChained found upperFound).mpr (second.trans first)

/-- In every table that definitions have led to, the walk upward lists a class and its
proper ancestors and ends because it has come to a root, and the subclass test, which
compares one position of the list, is membership in it. -/
theorem subclass_ancestry (tag : Nat) (decls : List ClassDecl) :
    let table := (empty tag).attemptAll decls
    (∀ id cls, table.find? id = some cls → ∃ chain, table.Lists cls chain ∧
      table.ancestors id = .ok chain ∧
      (∀ steps, cls.depth < steps → table.climb steps id = .ok chain) ∧
      ∀ ancestor upper, table.find? ancestor = some upper → ∃ above,
        table.ancestors ancestor = .ok above ∧
        table.isSubclassOf id ancestor = .ok (decide (ancestor ∈ chain.map (·.id))) ∧
        (table.isSubclassOf id ancestor = .ok true ↔ above <:+ chain)) ∧
    IsPartialOrder {id : ClassId // table.owns id = true}
      fun id ancestor => table.isSubclassOf id.1 ancestor.1 = .ok true := by
  intro table
  obtain ⟨accepted, holds⟩ := exists_holds_attemptAll (holds_empty tag) decls
  refine ⟨?_, holds.isPartialOrder⟩
  intro id cls found
  have ownFound : table.find? cls.id = some cls := by rw [holds.id_of_find? found, found]
  obtain ⟨chain, chained⟩ := holds.exists_chain found
  refine ⟨chain, chained.lists holds ownFound, chained.ancestors_eq holds found, ?_, ?_⟩
  · intro steps enough
    refine chained.climb_eq found steps ?_
    rw [chained.length_eq holds ownFound]
    exact enough
  · intro ancestor upper upperFound
    obtain ⟨above, upperChained⟩ := holds.exists_chain upperFound
    exact ⟨above, upperChained.ancestors_eq holds upperFound,
      chained.isSubclassOf_eq holds found upperFound,
      chained.isSubclassOf_iff holds upperChained found upperFound⟩

end Lineage.ClassTable
