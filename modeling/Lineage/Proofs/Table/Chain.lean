import Lineage.Proofs.Table.Grown

/-!
# Chains of ancestors

`Chain` says what a class and its ancestors are, nearest first, by following
parents; it does not count steps.  Every class of a table that holds its
definitions has a chain, `ancestors` computes it, positions strictly decrease
along it, and `isSubclassOf`, which looks at one position only, decides
membership in it.
-/

set_option autoImplicit false

namespace Lineage.ClassTable

/-- A class with all its ancestors, nearest first. -/
inductive Chain (table : ClassTable) : Class → List Class → Prop where
  | root {cls : Class} (isRoot : cls.parent = none) : Chain table cls [cls]
  | under {cls upper : Class} {id : ClassId} {rest : List Class}
      (inherits : cls.parent = some id) (found : table.find? id = some upper)
      (above : Chain table upper rest) : Chain table cls (cls :: rest)

variable {table : ClassTable} {decls : List ClassDecl}

theorem Chain.eq_cons {cls : Class} {chain : List Class} (chained : table.Chain cls chain) :
    ∃ rest, chain = cls :: rest := by
  cases chained with
  | root isRoot => exact ⟨[], rfl⟩
  | under inherits found above => exact ⟨_, rfl⟩

theorem Chain.head_mem {cls : Class} {chain : List Class} (chained : table.Chain cls chain) :
    cls ∈ chain := by
  obtain ⟨rest, shape⟩ := chained.eq_cons
  rw [shape]
  exact List.mem_cons_self

/-- A class has one chain. -/
theorem Chain.unique {cls : Class} {chain other : List Class}
    (chained : table.Chain cls chain) (otherChained : table.Chain cls other) : chain = other := by
  induction chained generalizing other with
  | root isRoot =>
      cases otherChained with
      | root _ => rfl
      | under inherits _ _ =>
          rw [isRoot] at inherits
          cases inherits
  | under inherits found above ih =>
      cases otherChained with
      | root isRoot =>
          rw [isRoot] at inherits
          cases inherits
      | under otherInherits otherFound otherAbove =>
          rw [inherits] at otherInherits
          cases otherInherits
          rw [found] at otherFound
          cases otherFound
          rw [ih otherAbove]

/-- What is left of a chain from one of its classes on is the chain of that class. -/
theorem Chain.of_append {cls member : Class} {before after : List Class}
    (chained : table.Chain cls (before ++ member :: after)) :
    table.Chain member (member :: after) := by
  induction before generalizing cls with
  | nil =>
      obtain ⟨rest, same⟩ := chained.eq_cons
      cases same
      exact chained
  | cons first rest ih =>
      rw [List.cons_append] at chained
      generalize list : rest ++ member :: after = tail at chained
      cases chained with
      | root isRoot => simp at list
      | under inherits found above => exact ih (list ▸ above)

theorem Chain.exists_of_mem {cls member : Class} {chain : List Class}
    (chained : table.Chain cls chain) (inChain : member ∈ chain) :
    ∃ before after, chain = before ++ member :: after ∧
      table.Chain member (member :: after) := by
  obtain ⟨before, after, split⟩ := List.append_of_mem inChain
  subst split
  exact ⟨before, after, rfl, chained.of_append⟩

/-- After a class that is no root comes its parent. -/
theorem Chain.eq_cons_of_parent {cls member : Class} {before after : List Class} {id : ClassId}
    (chained : table.Chain cls (before ++ member :: after)) (inherits : member.parent = some id) :
    ∃ upper rest, table.find? id = some upper ∧ after = upper :: rest := by
  cases chained.of_append with
  | root isRoot =>
      rw [isRoot] at inherits
      cases inherits
  | under sameParent found above =>
      rw [sameParent] at inherits
      cases inherits
      obtain ⟨rest, shape⟩ := above.eq_cons
      exact ⟨_, rest, found, shape⟩

theorem Chain.find?_of_mem (holds : table.Holds decls) {cls member : Class} {chain : List Class}
    (chained : table.Chain cls chain) (found : table.find? cls.id = some cls)
    (inChain : member ∈ chain) : table.find? member.id = some member := by
  induction chained with
  | root isRoot =>
      rw [List.mem_singleton] at inChain
      subst inChain
      exact found
  | under inherits upperFound above ih =>
      rcases List.mem_cons.mp inChain with rfl | later
      · exact found
      · have ownId := holds.id_of_find? upperFound
        exact ih (ownId ▸ upperFound) later

/-! ## Every class has a chain -/

/-- How a class continues its parent. -/
theorem Holds.parent_of_find? (holds : table.Holds decls) {id upperId : ClassId} {cls : Class}
    (found : table.find? id = some cls) (inherits : cls.parent = some upperId) :
    ∃ upper, table.find? upperId = some upper ∧ upperId.index < id.index ∧
      cls.depth = upper.depth + 1 ∧ cls.layout = upper.layout.extend cls.id cls.fields := by
  obtain ⟨decl, parent, listed, placed⟩ := holds.placed_of_find? found
  have made := placed.made
  cases parent with
  | none =>
      rw [made] at inherits
      cases inherits
  | some upper =>
      obtain ⟨upperFound, below⟩ := placed.parentFound upper rfl
      have sameId : upper.id = upperId := by
        rw [made] at inherits
        exact Option.some.inj inherits
      subst sameId
      exact ⟨upper, upperFound, below, by rw [made]; rfl, by rw [made]; rfl⟩

theorem Holds.above_of_find? (holds : table.Holds decls) {upperId : ClassId} {cls upper : Class}
    (found : table.find? cls.id = some cls) (inherits : cls.parent = some upperId)
    (upperFound : table.find? upperId = some upper) :
    table.find? upper.id = some upper ∧ upper.id.index < cls.id.index ∧
      cls.depth = upper.depth + 1 ∧ cls.layout = upper.layout.extend cls.id cls.fields := by
  obtain ⟨known, same, below, depth, layout⟩ := holds.parent_of_find? found inherits
  have sameClass := Option.some.inj (upperFound.symm.trans same)
  subst sameClass
  rw [holds.id_of_find? upperFound]
  exact ⟨upperFound, below, depth, layout⟩

theorem Holds.root_of_find? (holds : table.Holds decls) {id : ClassId} {cls : Class}
    (found : table.find? id = some cls) (isRoot : cls.parent = none) :
    cls.depth = 0 ∧ cls.layout = Layout.extend {} cls.id cls.fields := by
  obtain ⟨decl, parent, listed, placed⟩ := holds.placed_of_find? found
  have made := placed.made
  cases parent with
  | none => exact ⟨by rw [made]; rfl, by rw [made]; rfl⟩
  | some upper =>
      rw [made] at isRoot
      cases isRoot

theorem Holds.exists_chain (holds : table.Holds decls) {id : ClassId} {cls : Class}
    (found : table.find? id = some cls) : ∃ chain, table.Chain cls chain := by
  -- the position of a parent is smaller, so the walk upward ends
  induction position : id.index using Nat.strongRecOn generalizing id cls with
  | ind index ih =>
      cases inherits : cls.parent with
      | none => exact ⟨[cls], .root inherits⟩
      | some upperId =>
          obtain ⟨upper, upperFound, below, _, _⟩ := holds.parent_of_find? found inherits
          obtain ⟨rest, above⟩ := ih upperId.index (position ▸ below) upperFound rfl
          exact ⟨cls :: rest, .under inherits upperFound above⟩

/-- Positions strictly decrease along a chain. -/
theorem Chain.pairwise_index (holds : table.Holds decls) {cls : Class} {chain : List Class}
    (chained : table.Chain cls chain) (found : table.find? cls.id = some cls) :
    chain.Pairwise (fun lower upper => upper.id.index < lower.id.index) := by
  induction chained with
  | root isRoot => exact List.pairwise_singleton _ _
  | @under cls upper id rest inherits upperFound above ih =>
      obtain ⟨upperOwn, isBelow, _⟩ := holds.above_of_find? found inherits upperFound
      have decreasing := ih upperOwn
      refine List.pairwise_cons.mpr ⟨?_, decreasing⟩
      intro member inRest
      obtain ⟨tail, shape⟩ := above.eq_cons
      subst shape
      rcases List.mem_cons.mp inRest with rfl | later
      · exact isBelow
      · have further := (List.pairwise_cons.mp decreasing).1 member later
        exact Nat.lt_trans further isBelow

theorem Chain.nodup_ids (holds : table.Holds decls) {cls : Class} {chain : List Class}
    (chained : table.Chain cls chain) (found : table.find? cls.id = some cls) :
    (chain.map (·.id)).Nodup := by
  refine List.Pairwise.map (fun cls => cls.id) ?_ (chained.pairwise_index holds found)
  intro lower upper below same
  rw [same] at below
  exact Nat.lt_irrefl _ below

theorem Chain.length_eq (holds : table.Holds decls) {cls : Class} {chain : List Class}
    (chained : table.Chain cls chain) (found : table.find? cls.id = some cls) :
    chain.length = cls.depth + 1 := by
  induction chained with
  | root isRoot => simp [(holds.root_of_find? found isRoot).1]
  | under inherits upperFound above ih =>
      obtain ⟨upperOwn, _, depth, _⟩ := holds.above_of_find? found inherits upperFound
      rw [List.length_cons, ih upperOwn, depth]

theorem Chain.length_le (holds : table.Holds decls) {cls : Class} {chain : List Class}
    (chained : table.Chain cls chain) (found : table.find? cls.id = some cls) :
    chain.length ≤ cls.id.index + 1 := by
  induction chained with
  | root isRoot => simp
  | under inherits upperFound above ih =>
      obtain ⟨upperOwn, below, _⟩ := holds.above_of_find? found inherits upperFound
      have bound := ih upperOwn
      rw [List.length_cons]
      omega

/-! ## The walk upward -/

theorem Chain.climb_eq {id : ClassId} {cls : Class} {chain : List Class}
    (chained : table.Chain cls chain) (found : table.find? id = some cls) (steps : Nat)
    (enough : chain.length ≤ steps) : table.climb steps id = .ok chain := by
  induction chained generalizing id steps with
  | root isRoot =>
      cases steps with
      | zero => simp at enough
      | succ steps => simp [climb, classAt_of_find? found, isRoot, bind, Except.bind, pure,
          Except.pure]
  | under inherits upperFound above ih =>
      cases steps with
      | zero => simp at enough
      | succ steps =>
          have further := ih upperFound steps (by simpa using enough)
          simp [climb, classAt_of_find? found, inherits, further, bind, Except.bind, pure,
            Except.pure]

theorem Chain.ancestors_eq (holds : table.Holds decls) {id : ClassId} {cls : Class}
    {chain : List Class} (chained : table.Chain cls chain) (found : table.find? id = some cls) :
    table.ancestors id = .ok chain := by
  have ownId := holds.id_of_find? found
  have bound := chained.length_le holds (ownId ▸ found)
  have inside := table.find?_index_lt found
  rw [ownId] at bound
  exact chained.climb_eq found table.size (Nat.le_trans bound inside)

/-- What the walk lists is the chain of a class that is there. -/
theorem Holds.chain_of_ancestors (holds : table.Holds decls) {id : ClassId}
    {listed : List Class} (walked : table.ancestors id = .ok listed) :
    ∃ cls, table.find? id = some cls ∧ table.Chain cls listed := by
  cases found : table.find? id with
  | none =>
      have refused : table.classAt id = .error .breach := by simp only [classAt, found]
      unfold ancestors at walked
      cases size : table.size with
      | zero =>
          rw [size] at walked
          cases walked
      | succ steps =>
          rw [size, climb, refused] at walked
          cases walked
  | some cls =>
      obtain ⟨chain, chained⟩ := holds.exists_chain found
      cases walked.symm.trans (chained.ancestors_eq holds found)
      exact ⟨cls, rfl, chained⟩

theorem Chain.up_eq {id : ClassId} {cls : Class} {chain : List Class}
    (chained : table.Chain cls chain) (found : table.find? id = some cls) (steps : Nat) :
    table.up steps id = .ok chain[steps]? := by
  induction chained generalizing id steps with
  | root isRoot =>
      cases steps with
      | zero => simp [up, classAt_of_find? found, Except.map]
      | succ steps => simp [up, classAt_of_find? found, isRoot, bind, Except.bind, pure,
          Except.pure]
  | under inherits upperFound above ih =>
      cases steps with
      | zero => simp [up, classAt_of_find? found, Except.map]
      | succ steps =>
          simp [up, classAt_of_find? found, inherits, ih upperFound steps, bind, Except.bind]

/-- A class stands in a chain as far up as it is less deep than the first. -/
theorem Chain.getElem?_of_mem (holds : table.Holds decls) {cls member : Class}
    {chain : List Class} (chained : table.Chain cls chain)
    (found : table.find? cls.id = some cls) (inChain : member ∈ chain) :
    member.depth ≤ cls.depth ∧ chain[cls.depth - member.depth]? = some member := by
  obtain ⟨before, after, split, above⟩ := chained.exists_of_mem inChain
  have whole := chained.length_eq holds found
  have part := above.length_eq holds (chained.find?_of_mem holds found inChain)
  subst split
  rw [List.length_append] at whole
  have position : cls.depth - member.depth = before.length := by omega
  refine ⟨by omega, ?_⟩
  rw [position]
  simp

theorem Chain.id_mem_iff (holds : table.Holds decls) {cls upper : Class} {chain : List Class}
    {ancestor : ClassId} (chained : table.Chain cls chain)
    (found : table.find? cls.id = some cls) (upperFound : table.find? ancestor = some upper) :
    ancestor ∈ chain.map (·.id) ↔ upper ∈ chain := by
  constructor
  · intro listed
    obtain ⟨member, inChain, same⟩ := List.mem_map.mp listed
    have memberFound := chained.find?_of_mem holds found inChain
    rw [same, upperFound] at memberFound
    cases memberFound
    exact inChain
  · intro inChain
    exact List.mem_map.mpr ⟨upper, inChain, holds.id_of_find? upperFound⟩

/-- The comparison of one position decides whether a class is an ancestor. -/
theorem Chain.isSubclassOf_eq (holds : table.Holds decls) {id ancestor : ClassId}
    {cls upper : Class} {chain : List Class} (chained : table.Chain cls chain)
    (found : table.find? id = some cls) (upperFound : table.find? ancestor = some upper) :
    table.isSubclassOf id ancestor = .ok (decide (ancestor ∈ chain.map (·.id))) := by
  have ownFound : table.find? cls.id = some cls := by rw [holds.id_of_find? found, found]
  have upperId := holds.id_of_find? upperFound
  have member_of_id := (chained.id_mem_iff holds ownFound upperFound).mp
  simp only [isSubclassOf, classAt_of_find? upperFound, classAt_of_find? found, bind, Except.bind,
    pure, Except.pure]
  by_cases shallow : cls.depth < upper.depth
  · have absent : ancestor ∉ chain.map (·.id) := fun listed =>
      absurd (chained.getElem?_of_mem holds ownFound (member_of_id listed)).1
        (Nat.not_le_of_lt shallow)
    simp [shallow, absent]
  · simp only [shallow, if_false, chained.up_eq found]
    cases reached : chain[cls.depth - upper.depth]? with
    | none =>
        have absent : ancestor ∉ chain.map (·.id) := fun listed => by
          have there := (chained.getElem?_of_mem holds ownFound (member_of_id listed)).2
          rw [reached] at there
          cases there
        simp [absent]
    | some other =>
        have inChain : other ∈ chain := List.mem_of_getElem? reached
        by_cases same : other.id = ancestor
        · have listed : ancestor ∈ chain.map (·.id) := List.mem_map.mpr ⟨other, inChain, same⟩
          simp [same, listed]
        · have absent : ancestor ∉ chain.map (·.id) := fun listed => by
            have there := (chained.getElem?_of_mem holds ownFound (member_of_id listed)).2
            rw [reached] at there
            cases there
            exact same upperId
          simp [same, absent]

end Lineage.ClassTable
