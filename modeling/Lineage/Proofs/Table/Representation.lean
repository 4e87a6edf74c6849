import Lineage.Proofs.Table.Layout

/-!
# What a class table says of its definitions

A table keeps several things about a class that follow from its definition and from the
classes above it: its identity, depth and layout, and the place of its name.  `Describes`
says what they have to be, with the chain of the class in place of what is kept, and
`attemptAll_describes` says that they are so after any definitions, refused ones among
them, and stay so.
-/

set_option autoImplicit false

namespace Lineage.ClassTable

/-- The class at a position is the one that the definition gives there.  What it keeps
beside its definition is what its chain gives. -/
structure Describes (table : ClassTable) (index : Nat) (decl : ClassDecl) (cls : Class)
    (chain : List Class) : Prop where
  id : cls.id = ⟨table.tag, index⟩
  name : cls.name = decl.name
  fields : cls.fields = decl.fields
  methods : cls.methods = decl.methods.map fun method => ⟨cls.id, method.signature, method.body⟩
  root : cls.parent = none ↔ decl.parent = none
  parent : ∀ above, cls.parent = some above →
    above.index < index ∧ ∃ upper, table.find? above = some upper ∧ decl.parent = some upper.name
  chained : table.Chain cls chain
  ancestors : table.ancestors cls.id = .ok chain
  /-- The depth counts the proper ancestors. -/
  depth : cls.depth = chain.tail.length
  /-- The slots of the topmost class come first. -/
  slots : cls.slots = chain.reverse.flatMap fun upper =>
    upper.fields.map fun field => ⟨field.name, upper.id, field.initial⟩
  /-- A field has the last slot of its name. -/
  slotOf? : ∀ field slot, cls.slotOf? field = some slot ↔
    (cls.slots.map (·.name))[slot]? = some field ∧
      ∀ later, slot < later → (cls.slots.map (·.name))[later]? ≠ some field
  /-- That slot holds what the nearest class that declares the field declares. -/
  nearest : ∀ field owner, chain.find? (·.declaresField field) = some owner →
    ∃ slot initial, cls.slotOf? field = some slot ∧ ⟨field, initial⟩ ∈ owner.fields ∧
      cls.slots[slot]? = some ⟨field, owner.id, initial⟩
  undeclared : ∀ field, cls.slotOf? field = none ↔
    ∀ upper ∈ chain, upper.declaresField field = false
  /-- The slots of an ancestor keep their places. -/
  above : ∀ upper ∈ chain, upper.slots <+: cls.slots

variable {table : ClassTable} {decls : List ClassDecl}

theorem Placed.root_iff {index : Nat} {decl : ClassDecl} {parent : Option Class} {cls : Class}
    (placed : table.Placed index decl parent cls) : cls.parent = none ↔ decl.parent = none := by
  rw [placed.parentName, placed.made, Class.ofDecl, Option.map_eq_none_iff,
    Option.map_eq_none_iff]

theorem Placed.parent_eq_some {index : Nat} {decl : ClassDecl} {parent : Option Class}
    {cls : Class} (placed : table.Placed index decl parent cls) {above : ClassId}
    (inherits : cls.parent = some above) :
    above.index < index ∧ ∃ upper, table.find? above = some upper ∧
      decl.parent = some upper.name := by
  rw [placed.made] at inherits
  obtain ⟨upper, rfl, rfl⟩ := Option.map_eq_some_iff.mp inherits
  obtain ⟨found, below⟩ := placed.parentFound upper rfl
  exact ⟨below, upper, found, placed.parentName⟩

section Chained
variable {cls : Class} {chain : List Class} (holds : table.Holds decls)
  (chained : table.Chain cls chain) (found : table.find? cls.id = some cls)
include holds chained found

/-- The nearest declaration of a field is in the slot where the field is looked up. -/
theorem Chain.exists_declaration {field : String} {owner : Class}
    (declared : chain.find? (·.declaresField field) = some owner) :
    ∃ slot initial, cls.slotOf? field = some slot ∧ ⟨field, initial⟩ ∈ owner.fields ∧
      cls.slots[slot]? = some ⟨field, owner.id, initial⟩ := by
  obtain ⟨slot, initial, placed, stored⟩ := chained.exists_slotOf? holds found declared
  refine ⟨slot, initial, placed, ?_, stored⟩
  have listed := List.mem_of_getElem? stored
  rw [chained.slots_eq holds found, List.mem_flatMap] at listed
  obtain ⟨upper, inChain, own⟩ := listed
  obtain ⟨decl, inFields, same⟩ := List.mem_map.mp own
  simp only [Slot.mk.injEq] at same
  obtain ⟨rfl, sameId, rfl⟩ := same
  have upperFound := chained.find?_of_mem holds found (List.mem_reverse.mp inChain)
  have ownerFound := chained.find?_of_mem holds found (List.mem_of_find?_eq_some declared)
  rw [sameId, ownerFound] at upperFound
  cases upperFound
  exact inFields

theorem Chain.slotOf?_eq_none_iff (field : String) :
    cls.slotOf? field = none ↔ ∀ upper ∈ chain, upper.declaresField field = false := by
  constructor
  · intro unplaced upper inChain
    rw [← Bool.not_eq_true]
    intro declares
    obtain ⟨owner, declared⟩ : ∃ owner, chain.find? (·.declaresField field) = some owner :=
      Option.isSome_iff_exists.mp (List.find?_isSome.mpr ⟨upper, inChain, declares⟩)
    obtain ⟨slot, _, placed, _⟩ := chained.exists_slotOf? holds found declared
    rw [unplaced] at placed
    cases placed
  · intro undeclared
    refine chained.slotOf?_eq_none holds found (List.find?_eq_none.mpr ?_)
    intro upper inChain
    rw [undeclared upper inChain]
    exact Bool.false_ne_true

end Chained

theorem Holds.exists_describes (holds : table.Holds decls) {index : Nat} {decl : ClassDecl}
    (listed : decls[index]? = some decl) :
    ∃ cls chain, table.find? ⟨table.tag, index⟩ = some cls ∧
      table.Describes index decl cls chain := by
  obtain ⟨cls, parent, stands, placed⟩ := holds.exists_placed listed
  obtain ⟨chain, chained⟩ := holds.exists_chain stands
  have found : table.find? cls.id = some cls := placed.id_eq ▸ stands
  refine ⟨cls, chain, stands, ?_⟩
  exact {
    id := placed.id_eq
    name := placed.name_eq
    fields := placed.fields_eq
    methods := placed.methods_eq
    root := placed.root_iff
    parent := fun above inherits => placed.parent_eq_some inherits
    chained := chained
    ancestors := chained.ancestors_eq holds found
    depth := by rw [List.length_tail, chained.length_eq holds found, Nat.add_sub_cancel]
    slots := chained.slots_eq holds found
    slotOf? := fun field slot => by
      rw [Class.slotOf?, chained.indexed holds found field]
      exact lastIndex?_eq_some_iff field _ slot
    nearest := fun field owner declared => chained.exists_declaration holds found declared
    undeclared := chained.slotOf?_eq_none_iff holds found
    above := fun upper inChain => chained.slots_prefix holds found inChain }

/-- After any definitions, a table holds exactly those that it accepted, each as the class
that its definition and its chain describe, under its own name, which no other has.  Later
definitions change nothing of them. -/
theorem attemptAll_describes (tag : Nat) (decls : List ClassDecl) :
    let table := (empty tag).attemptAll decls
    let held := (empty tag).accepted decls
    table.size = held.length ∧
      (∀ index decl, held[index]? = some decl → ∃ cls chain,
        table.find? ⟨tag, index⟩ = some cls ∧ table.Describes index decl cls chain) ∧
      (held.map (·.name)).Nodup ∧
      (∀ name id, table.names.find? name = some id ↔
        ∃ index decl, held[index]? = some decl ∧ decl.name = name ∧ id = ⟨tag, index⟩) ∧
      ∀ later id cls, table.find? id = some cls →
        (table.attemptAll later).find? id = some cls := by
  intro table held
  have holds : table.Holds held := by
    have fromEmpty := holds_attemptAll (holds_empty tag) decls
    rwa [List.nil_append] at fromEmpty
  have sameTag : table.tag = tag := ((empty tag).grows_attemptAll decls).tag
  refine ⟨holds.size, ?_, holds.nodup_names, ?_,
    fun later id cls => (table.grows_attemptAll later).find? id cls⟩
  · intro index decl listed
    rw [← sameTag]
    exact holds.exists_describes listed
  · intro name id
    rw [holds.named name id]
    constructor
    · rintro ⟨cls, found, isName⟩
      obtain ⟨decl, parent, listed, placed⟩ := holds.placed_of_find? found
      refine ⟨id.index, decl, listed, placed.name_eq ▸ isName, ?_⟩
      rw [← holds.id_of_find? found, placed.id_eq, sameTag]
    · rintro ⟨index, decl, listed, isName, rfl⟩
      obtain ⟨cls, parent, found, placed⟩ := holds.exists_placed listed
      rw [sameTag] at found
      exact ⟨cls, found, placed.name_eq.trans isName⟩

end Lineage.ClassTable
