import Lineage.Proofs.Store.Fields
import Lineage.Proofs.Table.Layout

/-!
# Instances that fit their class

An instance fits a class if it is of that class and has as many slots as the layout of the
class.  Then no field that a class declares lies outside the instance: a view of the class
or of a class above it reaches the fields that its chain declares and refuses all others
(`Fits.decided_position`), and a store reads and writes accordingly (`Fits.accesses`).
-/

set_option autoImplicit false

namespace Lineage

/-- The instance is of that class and has its slots. -/
structure Fits (table : ClassTable) (inst : Instance) (cls : Class) : Prop where
  found : table.find? inst.cls = some cls
  length : inst.slots.length = cls.slots.length

/-- The outcome is a value if the condition holds and that fault if it does not. -/
def Outcome.DecidedBy {α : Type} (condition : Bool) (cause : Fault) (outcome : Outcome α) :
    Prop :=
  match condition with
  | true => ∃ value, outcome = .ok value
  | false => outcome = refuse cause

theorem Outcome.DecidedBy.bind {α β : Type} {condition : Bool} {cause : Fault}
    {outcome : Outcome α} (decided : DecidedBy condition cause outcome) {next : α → Outcome β}
    (rest : ∀ value, outcome = .ok value → ∃ last, next value = .ok last) :
    DecidedBy condition cause (outcome >>= next) := by
  cases condition with
  | false =>
      have refused : outcome = refuse cause := decided
      rw [refused]
      rfl
  | true =>
      obtain ⟨value, answered⟩ := decided
      obtain ⟨last, answeredLast⟩ := rest value answered
      rw [answered]
      exact ⟨last, answeredLast⟩

theorem Outcome.DecidedBy.map {α β : Type} {condition : Bool} {cause : Fault}
    {outcome : Outcome α} (decided : DecidedBy condition cause outcome) (next : α → β) :
    DecidedBy condition cause (outcome.map next) := by
  have same : outcome.map next = outcome >>= fun value => .ok (next value) := by
    cases outcome <;> rfl
  rw [same]
  exact decided.bind fun _ _ => ⟨_, rfl⟩

section Fitting
variable {table : ClassTable} {decls : List ClassDecl} {cls : Class} {chain : List Class}
  {inst : Instance}

theorem Fits.own (holds : table.Holds decls) (fits : Fits table inst cls) :
    table.find? cls.id = some cls := by
  rw [holds.id_of_find? fits.found, fits.found]

theorem fits_ofClass (found : table.find? cls.id = some cls) (domain : Domain) :
    Fits table (.ofClass cls domain) cls where
  found := found
  length := by simp [Instance.ofClass]

theorem Fits.set (fits : Fits table inst cls) (slot : Nat) (value : Value) :
    Fits table { inst with slots := inst.slots.set slot value } cls where
  found := fits.found
  length := by rw [List.length_set, fits.length]

/-! ## Fields as a class sees them -/

section Views
variable {view : Class} {viewChain : List Class} {field : String}

/-- A field that the view's chain declares is in the slot of its nearest declaration. -/
theorem Fits.exists_position (holds : table.Holds decls) (chained : table.Chain cls chain)
    (fits : Fits table inst cls) (inChain : view ∈ chain)
    (viewChained : table.Chain view viewChain) {owner : Class}
    (declared : viewChain.find? (·.declaresField field) = some owner) :
    ∃ slot initial, inst.position view field = .ok slot ∧ slot < inst.slots.length ∧
      cls.slots[slot]? = some ⟨field, owner.id, initial⟩ := by
  have own := fits.own holds
  have viewFound := chained.find?_of_mem holds own inChain
  obtain ⟨slot, initial, placed, stored⟩ := viewChained.exists_slotOf? holds viewFound declared
  have inView := (List.getElem?_eq_some_iff.mp stored).1
  obtain ⟨rest, whole⟩ := chained.slots_prefix holds own inChain
  have inExact : cls.slots[slot]? = some ⟨field, owner.id, initial⟩ := by
    rw [← whole, List.getElem?_append_left inView, stored]
  have inside : slot < inst.slots.length := by
    rw [fits.length]
    exact (List.getElem?_eq_some_iff.mp inExact).1
  have sameTable : view.id.table = inst.cls.table := by
    rw [((table.find?_eq_some_iff _ _).mp viewFound).1,
      ((table.find?_eq_some_iff _ _).mp fits.found).1]
  exact ⟨slot, initial, (inst.position_eq_ok_iff view field slot).mpr
    ⟨sameTable, placed, inside⟩, inside, inExact⟩

theorem Fits.position_of_undeclared (holds : table.Holds decls) (fits : Fits table inst cls)
    (viewFound : table.find? view.id = some view) (viewChained : table.Chain view viewChain)
    (undeclared : viewChain.find? (·.declaresField field) = none) :
    inst.position view field = refuse (.unknownField view.name field) := by
  have sameTable : view.id.table = inst.cls.table := by
    rw [((table.find?_eq_some_iff _ _).mp viewFound).1,
      ((table.find?_eq_some_iff _ _).mp fits.found).1]
  have unplaced := viewChained.slotOf?_eq_none holds viewFound undeclared
  simp [Instance.position, sameTable, unplaced]

variable (holds : table.Holds decls) (chained : table.Chain cls chain)
  (fits : Fits table inst cls) (inChain : view ∈ chain) (viewChained : table.Chain view viewChain)
include holds chained fits inChain viewChained

theorem Fits.decided_position (field : String) :
    Outcome.DecidedBy (viewChain.any (·.declaresField field)) (.unknownField view.name field)
      (inst.position view field) := by
  cases declared : viewChain.find? (·.declaresField field) with
  | none =>
      have nowhere : viewChain.any (·.declaresField field) = false := by
        rw [List.any_eq_false]
        exact List.find?_eq_none.mp declared
      have viewFound := chained.find?_of_mem holds (fits.own holds) inChain
      rw [nowhere]
      exact fits.position_of_undeclared holds viewFound viewChained declared
  | some owner =>
      have declares : owner.declaresField field = true := by
        simpa only using List.find?_some declared
      have somewhere : viewChain.any (·.declaresField field) = true :=
        List.any_eq_true.mpr ⟨owner, List.mem_of_find?_eq_some declared, declares⟩
      obtain ⟨slot, _, placed, _⟩ := fits.exists_position holds chained inChain viewChained declared
      rw [somewhere]
      exact ⟨slot, placed⟩

theorem Fits.decided_read (field : String) :
    Outcome.DecidedBy (viewChain.any (·.declaresField field)) (.unknownField view.name field)
      (inst.read view field) := by
  refine (fits.decided_position holds chained inChain viewChained field).bind ?_
  intro slot placed
  have inside := ((inst.position_eq_ok_iff view field slot).mp placed).2.2
  exact ⟨inst.slots[slot], by rw [List.getElem?_eq_getElem inside]; rfl⟩

theorem Fits.decided_write (field : String) (value : Value) :
    Outcome.DecidedBy (viewChain.any (·.declaresField field)) (.unknownField view.name field)
      (inst.write view field value) :=
  (fits.decided_position holds chained inChain viewChained field).bind
    fun _ _ => ⟨_, rfl⟩

end Views

end Fitting

/-! ## Stores -/

namespace Store

/-- The fields of an instance are reached where they are declared, and else refused for
that: in the chain of its class, and for an ancestor's view in the chain of the ancestor. -/
structure Accesses (store : Store) (classes : ClassTable) (id : InstanceNo) (cls : Class)
    (chain : List Class) : Prop where
  read : ∀ field, Outcome.DecidedBy (chain.any (·.declaresField field))
    (.unknownField cls.name field) (store.read classes id field)
  write : ∀ field value, Outcome.DecidedBy (chain.any (·.declaresField field))
    (.unknownField cls.name field) (store.write classes id field value)
  above : ∀ view viewChain field, view ∈ chain → classes.Chain view viewChain →
    Outcome.DecidedBy (viewChain.any (·.declaresField field)) (.unknownField view.name field)
      (store.readDeclared classes id view.name field)
  /-- A class that is not the instance's own or above it is no view of it. -/
  aside : ∀ viewId view field, classes.find? viewId = some view → view ∉ chain →
    store.readDeclared classes id view.name field =
      refuse (.incompatibleStaticType cls.name view.name)
  unknown : ∀ declaring field, classes.names.find? declaring = none →
    store.readDeclared classes id declaring field = refuse (.unknownClass declaring)

section Accesses
variable {store : Store} {classes : ClassTable} {decls : List ClassDecl} {id : InstanceNo}
  {inst : Instance} {cls : Class} {chain : List Class}

theorem read_of_find? (live : store.find? id = some inst)
    (found : classes.find? inst.cls = some cls) (field : String) :
    store.read classes id field = inst.read cls field := by
  simp only [read, (store.get_eq_ok_iff id inst).mpr live, ClassTable.get_of_find? found, bind,
    Except.bind]

theorem write_of_find? (live : store.find? id = some inst)
    (found : classes.find? inst.cls = some cls) (field : String) (value : Value) :
    store.write classes id field value =
      (inst.write cls field value).map fun changed => store.put id (some changed) := by
  rw [write_eq_map live, ClassTable.get_of_find? found]
  rfl

theorem readDeclared_of_find? (holds : classes.Holds decls) (chained : classes.Chain cls chain)
    (live : store.find? id = some inst) (fits : Fits classes inst cls) {viewId : ClassId}
    {view : Class} (viewFound : classes.find? viewId = some view) (field : String) :
    store.readDeclared classes id view.name field =
      if viewId ∈ chain.map (·.id) then inst.read view field
      else refuse (.incompatibleStaticType cls.name view.name) := by
  have own := fits.own holds
  have sameId := holds.id_of_find? viewFound
  have compared := chained.isSubclassOf_eq holds own viewFound
  simp only [readDeclared, holds.lookup_of_find? viewFound, (store.get_eq_ok_iff id inst).mpr live,
    ClassTable.get_of_find? fits.found, bind, Except.bind, sameId, compared, decide_eq_true_eq]

theorem accesses_of_fits (holds : classes.Holds decls) (chained : classes.Chain cls chain)
    (live : store.find? id = some inst) (fits : Fits classes inst cls) :
    store.Accesses classes id cls chain where
  read field := by
    rw [read_of_find? live fits.found]
    exact fits.decided_read holds chained chained.head_mem chained field
  write field value := by
    rw [write_of_find? live fits.found]
    exact (fits.decided_write holds chained chained.head_mem chained field value).map _
  above view viewChain field inChain viewChained := by
    have viewFound := chained.find?_of_mem holds (fits.own holds) inChain
    rw [readDeclared_of_find? holds chained live fits viewFound,
      if_pos (List.mem_map_of_mem inChain)]
    exact fits.decided_read holds chained inChain viewChained field
  aside viewId view field viewFound isAside := by
    rw [readDeclared_of_find? holds chained live fits viewFound, if_neg]
    intro listed
    obtain ⟨member, inChain, sameId⟩ := List.mem_map.mp listed
    have memberFound := chained.find?_of_mem holds (fits.own holds) inChain
    rw [sameId, viewFound] at memberFound
    cases memberFound
    exact isAside inChain
  unknown declaring field unnamed := by
    simp only [readDeclared, ClassTable.lookup, ClassTable.idOf, unnamed]
    rfl

end Accesses

end Store

end Lineage
