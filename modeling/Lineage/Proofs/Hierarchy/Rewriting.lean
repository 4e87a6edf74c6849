import Lineage.Hierarchy
import Lineage.Proofs.Table.Grown

/-!
# Hierarchies under other bodies

No definition is accepted or refused, no class is placed and no method is resolved by
what the bodies of the methods are.  So rewriting the bodies of the definitions and
building a hierarchy (`build_rewriteAll`), or resolving in it (`resolve_rewrite`), gives
what comes of rewriting the bodies afterwards.  How a body is rewritten may depend on the
class that declares the method and on its signature.
-/

set_option autoImplicit false

namespace Lineage

theorem Outcome.map_bind_map {α β γ δ : Type} (outcome : Outcome α) {change : α → β}
    {next : α → Outcome γ} {after : β → Outcome δ} {image : γ → δ}
    (same : ∀ value, after (change value) = (next value).map image) :
    (outcome.map change >>= after) = (outcome >>= next).map image := by
  cases outcome with
  | error failure => rfl
  | ok value => exact same value

section Values
variable {κ α β : Type} [DecidableEq κ]

/-- The map with every value changed. -/
def AssocMap.mapValues (change : α → β) (map : AssocMap κ α) : AssocMap κ β :=
  ⟨map.entries.map fun entry => (entry.1, change entry.2)⟩

theorem AssocMap.find?_mapValues (change : α → β) (map : AssocMap κ α) (key : κ) :
    (map.mapValues change).find? key = (map.find? key).map change :=
  lookup_map change map.entries key

theorem AssocMap.insert_mapValues (change : α → β) (map : AssocMap κ α) (key : κ) (value : α) :
    (map.mapValues change).insert key (change value) = (map.insert key value).mapValues change := by
  unfold mapValues insert
  congr 1
  induction map.entries with
  | nil => rfl
  | cons entry rest ih =>
      simp only [List.map_cons, insertEntry]
      by_cases here : entry.1 = key
      · simp only [if_pos here, List.map_cons]
      · simp only [if_neg here, List.map_cons, ih]

end Values

/-- What becomes of the body of a method, by the class that declares it and its
signature. -/
abbrev Rewriting := ClassId → Signature → Body → Body

variable (change : Rewriting)

/-! ## Definitions -/

def MethodDecl.rewrite (owner : ClassId) (decl : MethodDecl) : MethodDecl :=
  { decl with body := change owner decl.signature decl.body }

/-- The definition with its bodies rewritten, as one that becomes the given class. -/
def ClassDecl.rewrite (id : ClassId) (decl : ClassDecl) : ClassDecl :=
  { decl with methods := decl.methods.map (MethodDecl.rewrite change id) }

/-- The definitions with their bodies rewritten, for a table that holds just these. -/
def ClassDecl.rewriteAll (tag : Nat) (decls : List ClassDecl) : List ClassDecl :=
  decls.mapIdx fun index => ClassDecl.rewrite change ⟨tag, index⟩

def Method.rewrite (method : Method) : Method :=
  { method with body := change method.owner method.signature method.body }

def Class.rewrite (cls : Class) : Class :=
  { cls with methods := cls.methods.map (Method.rewrite change) }

theorem ClassDecl.checkMembers_rewrite (id : ClassId) (decl : ClassDecl) :
    (decl.rewrite change id).checkMembers = decl.checkMembers := by
  have sameSignatures : (decl.rewrite change id).methods.map (·.signature) =
      decl.methods.map (·.signature) := by
    rw [rewrite, List.map_map]
    rfl
  unfold checkMembers
  rw [sameSignatures]
  rfl

theorem Class.ofDecl_rewrite (id : ClassId) (parent : Option Class) (decl : ClassDecl) :
    ofDecl id (parent.map (rewrite change)) (decl.rewrite change id) =
      (ofDecl id parent decl).rewrite change := by
  cases parent <;>
    simp only [ofDecl, rewrite, ClassDecl.rewrite, List.map_map, Option.map_none,
      Option.map_some, Option.elim_none, Option.elim_some] <;> rfl

/-! ## Tables -/

namespace ClassTable

def rewrite (table : ClassTable) : ClassTable :=
  { table with classes := table.classes.map (Class.rewrite change) }

variable (table : ClassTable)

theorem find?_rewrite (id : ClassId) :
    (table.rewrite change).find? id = (table.find? id).map (Class.rewrite change) := by
  unfold find? rewrite
  split
  · rw [Array.getElem?_map]
  · rfl

theorem get_rewrite (id : ClassId) :
    (table.rewrite change).get id = (table.get id).map (Class.rewrite change) := by
  unfold get
  rw [find?_rewrite]
  cases table.find? id <;> rfl

theorem classAt_rewrite (id : ClassId) :
    (table.rewrite change).classAt id = (table.classAt id).map (Class.rewrite change) := by
  unfold classAt
  rw [find?_rewrite]
  cases table.find? id <;> rfl

theorem lookup_rewrite (name : String) :
    (table.rewrite change).lookup name = (table.lookup name).map (Class.rewrite change) := by
  unfold lookup
  have sameId : (table.rewrite change).idOf name = table.idOf name := rfl
  rw [sameId]
  cases table.idOf name with
  | error failure => rfl
  | ok id => exact table.classAt_rewrite change id

theorem parentOf_rewrite (id : ClassId) (decl : ClassDecl) :
    (table.rewrite change).parentOf (decl.rewrite change id) =
      (table.parentOf decl).map (Option.map (Class.rewrite change)) := by
  unfold parentOf
  have sameParent : (decl.rewrite change id).parent = decl.parent := rfl
  have sameNames : (table.rewrite change).names = table.names := rfl
  rw [sameParent, sameNames]
  cases decl.parent with
  | none => rfl
  | some parent =>
      cases named : table.names.find? parent with
      | none =>
          simp only [named]
          rfl
      | some id =>
          simp only [named, classAt_rewrite]
          cases table.classAt id <;> rfl

theorem push_rewrite (cls : Class) :
    (table.rewrite change).push (cls.rewrite change) = (table.push cls).rewrite change := by
  simp only [push, rewrite, Array.map_push]
  rfl

/-- A definition is accepted whatever its bodies are, and gives the same class but for
these. -/
theorem define_rewrite (decl : ClassDecl) :
    (table.rewrite change).define (decl.rewrite change ⟨table.tag, table.size⟩) =
      (table.define decl).map fun made => (made.1.rewrite change, made.2.rewrite change) := by
  have sameCheck : (table.rewrite change).checkName (decl.rewrite change ⟨table.tag, table.size⟩) =
      table.checkName decl := rfl
  have sameSize : (table.rewrite change).size = table.size := Array.size_map
  unfold define
  rw [sameCheck, parentOf_rewrite, ClassDecl.checkMembers_rewrite, sameSize]
  cases table.checkName decl with
  | error failure => rfl
  | ok checked =>
      cases table.parentOf decl with
      | error failure => rfl
      | ok parent =>
          cases decl.checkMembers with
          | error failure => rfl
          | ok distinct =>
              simp only [bind, Except.bind, Except.map, pure, Except.pure]
              have sameTag : (table.rewrite change).tag = table.tag := rfl
              rw [sameTag, Class.ofDecl_rewrite, push_rewrite]

theorem defineAll_rewrite (decls : List ClassDecl) :
    (table.rewrite change).defineAll
        (decls.mapIdx fun index => ClassDecl.rewrite change ⟨table.tag, table.size + index⟩) =
      ((table.defineAll decls).1.rewrite change, (table.defineAll decls).2) := by
  induction decls generalizing table with
  | nil => rfl
  | cons decl rest ih =>
      rw [List.mapIdx_cons, defineAll, Nat.add_zero, define_rewrite, defineAll]
      cases defined : table.define decl with
      | error failure => rfl
      | ok made =>
          -- the rest of the definitions goes to a table with one more class
          obtain ⟨_, _, _, _, _, _, grown⟩ := define_eq_ok defined
          have sameTag : made.1.tag = table.tag := by rw [grown]; rfl
          have further := ih made.1
          rw [sameTag, grown, size_push, ← grown] at further
          simpa only [Except.map, Nat.add_assoc, Nat.add_comm 1] using further

end ClassTable

namespace DispatchTable

def rewrite (table : DispatchTable) : DispatchTable :=
  ⟨table.methods.mapValues (Method.rewrite change)⟩

variable (table : DispatchTable)

theorem lookup_rewrite (signature : Signature) :
    (table.rewrite change).lookup signature =
      (table.lookup signature).map (Method.rewrite change) :=
  AssocMap.find?_mapValues _ table.methods signature

theorem override_rewrite (method : Method) :
    (table.rewrite change).override (method.rewrite change) =
      (table.override method).rewrite change :=
  congrArg DispatchTable.mk (AssocMap.insert_mapValues _ table.methods method.signature method)

theorem build_rewrite (cls : Class) :
    build (cls.rewrite change) (table.rewrite change) = (build cls table).rewrite change := by
  unfold build Class.rewrite
  induction cls.methods generalizing table with
  | nil => rfl
  | cons method rest ih =>
      rw [List.map_cons, List.foldl_cons, List.foldl_cons, override_rewrite, ih]

end DispatchTable

/-! ## Hierarchies -/

namespace Hierarchy

def rewrite (hierarchy : Hierarchy) : Hierarchy :=
  ⟨hierarchy.classes.rewrite change, hierarchy.tables.map (DispatchTable.rewrite change)⟩

@[simp] theorem classes_rewrite (hierarchy : Hierarchy) :
    (hierarchy.rewrite change).classes = hierarchy.classes.rewrite change := rfl

theorem inherited_rewrite (tables : Array DispatchTable) (cls : Class) :
    inherited (tables.map (DispatchTable.rewrite change)) (cls.rewrite change) =
      (inherited tables cls).map (DispatchTable.rewrite change) := by
  unfold inherited
  have sameParent : (cls.rewrite change).parent = cls.parent := rfl
  rw [sameParent]
  cases cls.parent with
  | none => rfl
  | some parent =>
      simp only [Array.getElem?_map]
      cases tables[parent.index]? <;> rfl

theorem buildTables_rewrite (tables : Array DispatchTable) (classes : List Class) :
    buildTables (tables.map (DispatchTable.rewrite change)) (classes.map (Class.rewrite change)) =
      (buildTables tables classes).map (Array.map (DispatchTable.rewrite change)) := by
  induction classes generalizing tables with
  | nil => rfl
  | cons cls rest ih =>
      rw [List.map_cons, buildTables, buildTables, inherited_rewrite]
      refine Outcome.map_bind_map _ ?_
      intro table
      rw [DispatchTable.build_rewrite, ← Array.map_push, ih]

theorem ofTable_rewrite (classes : ClassTable) :
    ofTable (classes.rewrite change) = (ofTable classes).map (rewrite change) := by
  have built := buildTables_rewrite change #[] classes.classes.toList
  rw [Array.map_empty, ← Array.toList_map] at built
  unfold ofTable
  have sameClasses : (classes.rewrite change).classes =
      classes.classes.map (Class.rewrite change) := rfl
  rw [sameClasses, built]
  exact Outcome.map_bind_map _ fun _ => rfl

/-- Bodies can be rewritten before a hierarchy is built or after. -/
theorem build_rewriteAll (tag : Nat) (decls : List ClassDecl) :
    build tag (ClassDecl.rewriteAll change tag decls) =
      (build tag decls).map (rewrite change) := by
  have defined := (ClassTable.empty tag).defineAll_rewrite change decls
  have sameEmpty : (ClassTable.empty tag).rewrite change = ClassTable.empty tag := by
    rw [ClassTable.rewrite, ClassTable.empty, Array.map_empty]
  have noClasses : (ClassTable.empty tag).size = 0 := rfl
  have sameTag : (ClassTable.empty tag).tag = tag := rfl
  simp only [sameEmpty, noClasses, sameTag, Nat.zero_add] at defined
  unfold build load ClassDecl.rewriteAll
  rw [defined]
  cases (ClassTable.empty tag).defineAll decls with
  | mk reached failed =>
      cases failed with
      | some failure => rfl
      | none => exact ofTable_rewrite change reached

variable (hierarchy : Hierarchy) (id : ClassId)

theorem tableOf_rewrite :
    (hierarchy.rewrite change).tableOf id =
      (hierarchy.tableOf id).map (DispatchTable.rewrite change) := by
  unfold tableOf
  rw [classes_rewrite, ClassTable.get_rewrite]
  refine Outcome.map_bind_map _ ?_
  intro cls
  unfold tableAt rewrite
  have sameId : (cls.rewrite change).id = cls.id := rfl
  rw [sameId, Array.getElem?_map]
  cases hierarchy.tables[cls.id.index]? <;> rfl

theorem noSuchMethod_rewrite {α : Type} (signature : Signature) :
    ((hierarchy.rewrite change).noSuchMethod id signature : Outcome α) =
      hierarchy.noSuchMethod id signature := by
  unfold noSuchMethod
  rw [classes_rewrite, ClassTable.classAt_rewrite]
  cases hierarchy.classes.classAt id <;> rfl

theorem resolve_rewrite (signature : Signature) :
    (hierarchy.rewrite change).resolve id signature =
      (hierarchy.resolve id signature).map (Method.rewrite change) := by
  unfold resolve
  rw [tableOf_rewrite]
  refine Outcome.map_bind_map _ ?_
  intro table
  rw [DispatchTable.lookup_rewrite]
  cases table.lookup signature with
  | some method => rfl
  | none =>
      simp only [Option.map_none, noSuchMethod_rewrite]
      unfold noSuchMethod
      cases hierarchy.classes.classAt id <;> rfl

end Hierarchy

end Lineage
