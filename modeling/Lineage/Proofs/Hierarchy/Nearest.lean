import Mathlib.Data.List.Dedup
import Mathlib.Tactic.Tauto
import Lineage.Hierarchy
import Lineage.Proofs.Table.Chain

/-!
# Nearest declarations

Dispatch tables are built by copying the parent's table and overwriting it.
`nearest` does without tables: it takes the first class of a chain that declares
the signature.  `Flattens` relates the two; `flattens_build` keeps it from a
parent to its child and `ofTable_eq_ok` follows it through the sealing of a whole
table, which always finds the parent's table already built.
-/

set_option autoImplicit false

namespace Lineage

def Class.method? (cls : Class) (signature : Signature) : Option Method :=
  cls.methods.find? fun method => method.signature = signature

/-- The method of the first class of a chain that declares the signature. -/
def nearest (chain : List Class) (signature : Signature) : Option Method :=
  chain.findSome? fun cls => cls.method? signature

/-- The signatures that the classes of a chain declare, with repetitions. -/
def declaredSignatures (chain : List Class) : List Signature :=
  chain.flatMap fun cls => cls.methods.map (·.signature)

theorem Class.method?_eq_none_iff (cls : Class) (signature : Signature) :
    cls.method? signature = none ↔ cls.declares signature = false := by
  simp [method?, declares]

theorem nearest_eq_none_iff (chain : List Class) (signature : Signature) :
    nearest chain signature = none ↔ ∀ cls ∈ chain, cls.declares signature = false := by
  simp only [nearest, List.findSome?_eq_none_iff, Class.method?_eq_none_iff]

theorem mem_of_nearest {chain : List Class} {signature : Signature} {method : Method}
    (found : nearest chain signature = some method) :
    ∃ cls ∈ chain, method ∈ cls.methods ∧ method.signature = signature := by
  obtain ⟨cls, inChain, declared⟩ := List.exists_of_findSome?_eq_some found
  refine ⟨cls, inChain, List.mem_of_find?_eq_some declared, ?_⟩
  simpa using List.find?_some declared

theorem nearest_append {before : List Class} {signature : Signature}
    (undeclared : ∀ lower ∈ before, lower.declares signature = false) (rest : List Class) :
    nearest (before ++ rest) signature = nearest rest signature := by
  have nothing := (nearest_eq_none_iff before signature).mpr undeclared
  simp only [nearest] at nothing ⊢
  rw [List.findSome?_append, nothing, Option.none_or]

/-- A key that no two elements share picks out a single element. -/
theorem filter_key_eq_singleton {α κ : Type} [DecidableEq κ] {key : α → κ} {values : List α}
    (distinct : (values.map key).Nodup) {value : α} (member : value ∈ values) :
    values.filter (fun other => key other = key value) = [value] := by
  induction values with
  | nil => cases member
  | cons first rest ih =>
      obtain ⟨absent, distinctRest⟩ := List.nodup_cons.mp distinct
      rcases List.mem_cons.mp member with rfl | later
      · have nothing : rest.filter (fun other => key other = key value) = [] := by
          rw [List.filter_eq_nil_iff]
          intro other inRest same
          exact absent (of_decide_eq_true same ▸ List.mem_map_of_mem inRest)
        simp [nothing]
      · have differs : key first ≠ key value := fun same =>
          absent (same ▸ List.mem_map_of_mem later)
        simp [differs, ih distinctRest later]

theorem ClassTable.Holds.owner_of_mem {table : ClassTable} {decls : List ClassDecl}
    (holds : table.Holds decls) {id : ClassId} {cls : Class} (found : table.find? id = some cls)
    {method : Method} (declared : method ∈ cls.methods) : method.owner = cls.id := by
  obtain ⟨decl, parent, _, placed⟩ := holds.placed_of_find? found
  rw [placed.methods_eq] at declared
  obtain ⟨source, _, rfl⟩ := List.mem_map.mp declared
  rfl

/-- What every class of a table declares, it declares once and as its own. -/
theorem ClassTable.Holds.method?_of_declares {table : ClassTable} {decls : List ClassDecl}
    (holds : table.Holds decls) {cls : Class} (found : table.find? cls.id = some cls)
    {signature : Signature} (declared : cls.declares signature = true) :
    ∃ method, cls.method? signature = some method ∧ method.owner = cls.id ∧
      cls.methods.filter (·.signature = signature) = [method] := by
  obtain ⟨decl, parent, listed, placed⟩ := holds.placed_of_find? found
  obtain ⟨method, inMethods, sameSignature⟩ : ∃ method ∈ cls.methods,
      method.signature = signature := by simpa [Class.declares] using declared
  have distinct : (cls.methods.map (·.signature)).Nodup := by
    rw [placed.made]
    simpa [Class.ofDecl, Function.comp_def] using placed.distinct.methods
  have owned := holds.owner_of_mem found inMethods
  have only : cls.methods.filter (·.signature = signature) = [method] := by
    rw [← sameSignature]
    exact filter_key_eq_singleton distinct inMethods
  refine ⟨method, ?_, owned, only⟩
  rw [Class.method?, ← List.head?_filter, only]
  rfl

namespace DispatchTable

theorem lookup_foldl_override (table : DispatchTable) (methods : List Method)
    (distinct : (methods.map (·.signature)).Nodup) (signature : Signature) :
    (methods.foldl override table).lookup signature =
      (methods.find? fun method => method.signature = signature).or
        (table.lookup signature) := by
  induction methods generalizing table with
  | nil => rfl
  | cons method rest ih =>
      obtain ⟨absent, distinctRest⟩ := List.nodup_cons.mp distinct
      rw [List.foldl_cons, ih (table.override method) distinctRest, lookup_override]
      by_cases same : method.signature = signature
      · have nothing : rest.find? (fun other => other.signature = signature) = none := by
          rw [List.find?_eq_none]
          intro other inRest otherSame
          apply absent
          rw [List.mem_map]
          exact ⟨other, inRest, (of_decide_eq_true otherSame).trans same.symm⟩
        simp [nothing, same]
      · simp [same, Ne.symm same]

theorem mem_keys_foldl_override (table : DispatchTable) (methods : List Method)
    (signature : Signature) :
    signature ∈ (methods.foldl override table).methods.keys ↔
      signature ∈ methods.map (·.signature) ∨ signature ∈ table.methods.keys := by
  induction methods generalizing table with
  | nil => simp
  | cons method rest ih =>
      rw [List.foldl_cons, ih (table.override method), override, AssocMap.mem_keys_insert,
        List.map_cons, List.mem_cons]
      tauto

theorem nodup_keys_foldl_override (table : DispatchTable) (methods : List Method)
    (distinct : table.methods.keys.Nodup) :
    (methods.foldl override table).methods.keys.Nodup := by
  induction methods generalizing table with
  | nil => exact distinct
  | cons method rest ih =>
      rw [List.foldl_cons]
      apply ih
      exact AssocMap.nodup_keys_insert table.methods method.signature method distinct

/-- The table says of every signature what the chain says, and has one entry for
each that the chain declares. -/
structure Flattens (table : DispatchTable) (chain : List Class) : Prop where
  lookup : ∀ signature, table.lookup signature = nearest chain signature
  distinct : table.methods.keys.Nodup
  keys : ∀ signature, signature ∈ table.methods.keys ↔ signature ∈ declaredSignatures chain

theorem flattens_empty : empty.Flattens [] where
  lookup signature := rfl
  distinct := List.nodup_nil
  keys signature := by simp [empty, AssocMap.empty, AssocMap.keys, declaredSignatures]

theorem flattens_build {cls : Class} {inherited : DispatchTable} {rest : List Class}
    (distinct : (cls.methods.map (·.signature)).Nodup) (flat : inherited.Flattens rest) :
    (build cls inherited).Flattens (cls :: rest) where
  lookup signature := by
    rw [build, lookup_foldl_override inherited cls.methods distinct, flat.lookup]
    simp only [nearest, List.findSome?_cons, Class.method?]
    cases cls.methods.find? fun method => method.signature = signature with
    | none => rfl
    | some method => rfl
  distinct := nodup_keys_foldl_override inherited cls.methods flat.distinct
  keys signature := by
    rw [build, mem_keys_foldl_override, flat.keys]
    simp [declaredSignatures]

theorem Flattens.size_eq {table : DispatchTable} {chain : List Class}
    (flat : table.Flattens chain) : table.size = (declaredSignatures chain).dedup.length := by
  have sameSignatures : table.methods.keys.Perm (declaredSignatures chain).dedup := by
    rw [List.perm_ext_iff_of_nodup flat.distinct (List.nodup_dedup _)]
    intro signature
    rw [flat.keys, List.mem_dedup]
  rw [← sameSignatures.length_eq, AssocMap.keys, List.length_map]
  rfl

end DispatchTable

namespace Hierarchy

variable {classes : ClassTable} {decls : List ClassDecl}

/-- Every class below a position has its table at its own position. -/
def TablesBuilt (classes : ClassTable) (tables : Array DispatchTable) : Prop :=
  ∀ id cls chain, classes.find? id = some cls → id.index < tables.size →
    classes.Chain cls chain → ∃ table, tables[id.index]? = some table ∧ table.Flattens chain

theorem exists_inherited (holds : classes.Holds decls) {tables : Array DispatchTable}
    (built : TablesBuilt classes tables) {id : ClassId} {cls : Class} {chain : List Class}
    (found : classes.find? id = some cls) (position : id.index = tables.size)
    (chained : classes.Chain cls chain) :
    ∃ table rest, inherited tables cls = .ok table ∧ chain = cls :: rest ∧
      table.Flattens rest := by
  cases chained with
  | root isRoot => exact ⟨.empty, [], by simp [inherited, isRoot], rfl,
      DispatchTable.flattens_empty⟩
  | @under _ upper upperId rest inherits upperFound above =>
      obtain ⟨known, same, isBelow, _⟩ := holds.parent_of_find? found inherits
      obtain ⟨table, stored, flat⟩ :=
        built upperId upper rest upperFound (position ▸ isBelow) above
      exact ⟨table, rest, by simp [inherited, inherits, stored], rfl, flat⟩

theorem tablesBuilt_push (holds : classes.Holds decls) {tables : Array DispatchTable}
    (built : TablesBuilt classes tables) {id : ClassId} {cls : Class}
    (found : classes.find? id = some cls) (position : id.index = tables.size)
    {table : DispatchTable} (inherits : inherited tables cls = .ok table) :
    TablesBuilt classes (tables.push (.build cls table)) := by
  intro other otherClass chain otherFound inside chained
  rw [Array.size_push] at inside
  rw [Array.getElem?_push]
  split
  · rename_i last
    have sameIndex : other = id := by
      have otherOwned := ((classes.find?_eq_some_iff other otherClass).mp otherFound).1
      have owned := ((classes.find?_eq_some_iff id cls).mp found).1
      cases other
      cases id
      simp_all
    subst sameIndex
    have sameClass := Option.some.inj (otherFound.symm.trans found)
    subst sameClass
    obtain ⟨known, rest, inheritsKnown, shape, flat⟩ :=
      exists_inherited holds built found position chained
    have sameTable : known = table := Except.ok.inj (inheritsKnown.symm.trans inherits)
    subst sameTable shape
    obtain ⟨decl, parent, listed, placed⟩ := holds.placed_of_find? found
    refine ⟨_, rfl, DispatchTable.flattens_build ?_ flat⟩
    rw [placed.made]
    simpa [Class.ofDecl, Function.comp_def] using placed.distinct.methods
  · rename_i notLast
    exact built other otherClass chain otherFound (by omega) chained

/-- Sealing goes through the classes in order and finds every parent's table. -/
theorem exists_buildTables (holds : classes.Holds decls) (tables : Array DispatchTable)
    (built : TablesBuilt classes tables) (rest : List Class)
    (remaining : rest = classes.classes.toList.drop tables.size)
    (inside : tables.size ≤ classes.size) :
    ∃ final, buildTables tables rest = .ok final ∧ final.size = classes.size ∧
      TablesBuilt classes final := by
  induction rest generalizing tables with
  | nil =>
      have full : classes.size ≤ tables.size := by
        simpa [ClassTable.size] using List.drop_eq_nil_iff.mp remaining.symm
      exact ⟨tables, rfl, Nat.le_antisymm inside full, built⟩
  | cons cls rest ih =>
      have stored : classes.classes[tables.size]? = some cls := by
        rw [← Array.getElem?_toList, ← List.head?_drop, ← remaining]
        rfl
      have found : classes.find? ⟨classes.tag, tables.size⟩ = some cls :=
        (classes.find?_eq_some_iff _ cls).mpr ⟨rfl, stored⟩
      obtain ⟨chain, chained⟩ := holds.exists_chain found
      obtain ⟨table, _, inherits, _⟩ := exists_inherited holds built found rfl chained
      have next : rest = classes.classes.toList.drop (tables.push (.build cls table)).size := by
        rw [Array.size_push, ← List.tail_drop, ← remaining]
        rfl
      have below : (tables.push (DispatchTable.build cls table)).size ≤ classes.size := by
        rw [Array.size_push]
        exact (Array.getElem?_eq_some_iff.mp stored).1
      obtain ⟨final, run, size, ready⟩ := ih (tables.push (.build cls table))
        (tablesBuilt_push holds built found rfl inherits) next below
      exact ⟨final, by simp [buildTables, inherits, run, bind, Except.bind], size, ready⟩

/-- A closed table with the dispatch table of each of its classes. -/
structure Flat (hierarchy : Hierarchy) (decls : List ClassDecl) : Prop where
  holds : hierarchy.classes.Holds decls
  tables : ∀ id cls chain, hierarchy.classes.find? id = some cls →
    hierarchy.classes.Chain cls chain →
      ∃ table, hierarchy.tables[id.index]? = some table ∧ table.Flattens chain

theorem ofTable_eq_ok (holds : classes.Holds decls) :
    ∃ hierarchy, ofTable classes = .ok hierarchy ∧ hierarchy.classes = classes ∧
      hierarchy.Flat decls := by
  have nothingBuilt : TablesBuilt classes #[] := by
    intro id cls chain found inside
    simp at inside
  obtain ⟨tables, run, size, built⟩ :=
    exists_buildTables holds #[] nothingBuilt classes.classes.toList rfl (Nat.zero_le _)
  refine ⟨⟨classes, tables⟩, by simp [ofTable, run, bind, Except.bind, pure, Except.pure], rfl,
    holds, ?_⟩
  intro id cls chain found chained
  exact built id cls chain found (size ▸ classes.find?_index_lt found) chained

theorem flat_of_ofTable (holds : classes.Holds decls) {hierarchy : Hierarchy}
    (closed : ofTable classes = .ok hierarchy) :
    hierarchy.classes = classes ∧ hierarchy.Flat decls := by
  obtain ⟨made, run, same, flat⟩ := ofTable_eq_ok holds
  have sameHierarchy : made = hierarchy := Except.ok.inj (run.symm.trans closed)
  exact sameHierarchy ▸ ⟨same, flat⟩

/-! ## Looking up -/

section Lookups
variable {hierarchy : Hierarchy} {id : ClassId} {cls : Class} {chain : List Class}

theorem Flat.exists_table (flat : hierarchy.Flat decls)
    (found : hierarchy.classes.find? id = some cls)
    (chained : hierarchy.classes.Chain cls chain) :
    ∃ table, hierarchy.tableOf id = .ok table ∧ hierarchy.dispatchTable id = .ok table ∧
      table.Flattens chain := by
  obtain ⟨table, stored, flattens⟩ := flat.tables id cls chain found chained
  have ownId := flat.holds.id_of_find? found
  have tableAt : hierarchy.tableAt cls = .ok table := by simp [tableAt, ownId, stored]
  refine ⟨table, ?_, ?_, flattens⟩
  · simp [tableOf, ClassTable.get_of_find? found, tableAt, bind, Except.bind]
  · simp [dispatchTable, ClassTable.classAt_of_find? found, tableAt, bind, Except.bind]

theorem Flat.resolve_eq (flat : hierarchy.Flat decls)
    (found : hierarchy.classes.find? id = some cls)
    (chained : hierarchy.classes.Chain cls chain) (signature : Signature) :
    hierarchy.resolve id signature =
      match nearest chain signature with
      | some method => .ok method
      | none => refuse (.noSuchMethod cls.name signature) := by
  obtain ⟨table, tableOf, _, flattens⟩ := flat.exists_table found chained
  simp only [resolve, tableOf, bind, Except.bind, flattens.lookup]
  cases nearest chain signature with
  | some method => rfl
  | none => simp [noSuchMethod, ClassTable.classAt_of_find? found, bind, Except.bind]

end Lookups

/-! ## Hierarchies that a host can make -/

/-- Definitions are tried in order on a new table, and the table is closed. -/
def Sealed (hierarchy : Hierarchy) : Prop :=
  ∃ tag decls, ofTable ((ClassTable.empty tag).attemptAll decls) = .ok hierarchy

theorem Sealed.exists_flat {hierarchy : Hierarchy} (isSealed : hierarchy.Sealed) :
    ∃ accepted, hierarchy.Flat accepted := by
  obtain ⟨tag, decls, closed⟩ := isSealed
  obtain ⟨accepted, holds⟩ := ClassTable.exists_holds_attemptAll (ClassTable.holds_empty tag) decls
  exact ⟨accepted, (flat_of_ofTable holds closed).2⟩

/-- A hierarchy that is built closes a table in which all definitions were accepted. -/
theorem exists_table_of_build {tag : Nat} {hierarchy : Hierarchy}
    (built : build tag decls = .ok hierarchy) :
    ∃ table : ClassTable, (ClassTable.empty tag).defineAll decls = (table, none) ∧
      table.Holds decls ∧ ofTable table = .ok hierarchy := by
  unfold build load at built
  cases run : (ClassTable.empty tag).defineAll decls with
  | mk reached failed =>
      cases failed with
      | some failure => simp [run] at built
      | none =>
          have holds := ClassTable.holds_of_defineAll (ClassTable.holds_empty tag) decls run
          rw [List.nil_append] at holds
          simp only [run] at built
          exact ⟨reached, rfl, holds, built⟩

theorem flat_of_build {tag : Nat} {hierarchy : Hierarchy}
    (built : build tag decls = .ok hierarchy) : hierarchy.Flat decls := by
  obtain ⟨table, _, holds, closed⟩ := exists_table_of_build built
  exact (flat_of_ofTable holds closed).2

theorem tag_of_build {tag : Nat} {hierarchy : Hierarchy}
    (built : build tag decls = .ok hierarchy) : hierarchy.classes.tag = tag := by
  obtain ⟨table, run, holds, closed⟩ := exists_table_of_build built
  have grown := ((ClassTable.empty tag).grows_defineAll decls).tag
  rw [run] at grown
  rw [(flat_of_ofTable holds closed).1]
  exact grown

/-- Resolution and both ways to a dispatch table give the method of the first
class of the chain that declares the signature, or nothing if none declares it,
and a table has one entry for each signature of the chain. -/
theorem nearest_declaration (tag : Nat) (decls : List ClassDecl) :
    let classes := (ClassTable.empty tag).attemptAll decls
    ∃ hierarchy, ofTable classes = .ok hierarchy ∧ hierarchy.classes = classes ∧
      ∀ id cls, classes.find? id = some cls →
        (∀ parent, cls.parent = some parent → parent.index < id.index) ∧
        ∃ chain table, classes.ancestors id = .ok chain ∧
          hierarchy.tableOf id = .ok table ∧ hierarchy.dispatchTable id = .ok table ∧
          table.size = (declaredSignatures chain).dedup.length ∧
          ∀ signature,
            (∀ before owner after, chain = before ++ owner :: after →
              (∀ lower ∈ before, lower.declares signature = false) →
              owner.declares signature = true →
                ∃ method, owner.methods.filter (·.signature = signature) = [method] ∧
                  method.owner = owner.id ∧
                  hierarchy.resolve id signature = .ok method ∧
                  table.lookup signature = some method) ∧
            (hierarchy.resolve id signature = refuse (.noSuchMethod cls.name signature) ↔
              ∀ upper ∈ chain, upper.declares signature = false) ∧
            (table.lookup signature = none ↔
              ∀ upper ∈ chain, upper.declares signature = false) := by
  intro classes
  obtain ⟨accepted, holds⟩ : ∃ accepted, classes.Holds accepted :=
    ClassTable.exists_holds_attemptAll (ClassTable.holds_empty tag) decls
  obtain ⟨hierarchy, closed, same, flat⟩ := ofTable_eq_ok holds
  refine ⟨hierarchy, closed, same, ?_⟩
  clear_value classes
  subst same
  intro id cls found
  obtain ⟨chain, chained⟩ := holds.exists_chain found
  have ownFound : hierarchy.classes.find? cls.id = some cls := by
    rw [holds.id_of_find? found, found]
  obtain ⟨table, tableOf, dispatchTable, flattens⟩ := flat.exists_table found chained
  have resolved := flat.resolve_eq found chained
  refine ⟨?_, chain, table, chained.ancestors_eq holds found, tableOf, dispatchTable,
    flattens.size_eq, ?_⟩
  · intro parent inherits
    obtain ⟨upper, _, isBelow, _⟩ := holds.parent_of_find? found inherits
    exact isBelow
  intro signature
  refine ⟨?_, ?_, ?_⟩
  · intro before owner after split undeclared declared
    have inChain : owner ∈ chain := by simp [split]
    have ownerFound := chained.find?_of_mem holds ownFound inChain
    obtain ⟨method, declares, owned, only⟩ := holds.method?_of_declares ownerFound declared
    have first : nearest chain signature = some method := by
      rw [split, nearest_append undeclared, nearest, List.findSome?_cons, declares]
    exact ⟨method, only, owned, by rw [resolved, first], by rw [flattens.lookup, first]⟩
  · rw [resolved, ← nearest_eq_none_iff]
    cases nearest chain signature with
    | none => simp
    | some method => simp [refuse]
  · rw [flattens.lookup, nearest_eq_none_iff]

end Hierarchy

end Lineage
