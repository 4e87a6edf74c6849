import Lineage.Proofs.Store.Fields
import Lineage.Proofs.Call.Gate

/-!
# Failures of single operations

What an operation can fail with is said for failures of several kinds alike, by naming those
that are bad (`Spares`).  Operations on sound tables fail with what a table lacks (`Tabular`),
many of them only with a class or a method that it lacks (`Classed`), whatever identities of
other tables they are given, and definitions fail with the faults that refuse them
(`Definitional`).  Operations on a store miss no instance if the one that they are asked for is
live (`Store.Serves`).  So each operation spares the bad failures if these kinds are not bad:
odd ones, for example, which are a breach, the use of an unchecked operation outside its
contract, and the fault that an instance is unknown.
-/

set_option autoImplicit false

namespace Lineage

/-! ## Outcomes -/

/-- A breach, or the fault that an instance is unknown. -/
inductive Failure.Odd : Failure → Prop where
  | breach : Odd .breach
  | unknown (id : InstanceNo) : Odd (.fault (.unknownInstance id))

/-- The outcome is an answer, or a failure that is not bad. -/
def Spares {α : Type} (bad : Failure → Prop) (outcome : Outcome α) : Prop :=
  ∀ failure, outcome = .error failure → ¬ bad failure

/-- The outcome is an answer or a fault about tables. -/
abbrev Ordinary {α : Type} (outcome : Outcome α) : Prop := Spares Failure.Odd outcome

section Outcomes
variable {α β : Type} {bad : Failure → Prop}

theorem spares_ok (value : α) : Spares bad (.ok value) := nofun

theorem spares_refuse {cause : Fault} (allowed : ¬ bad (.fault cause)) :
    Spares bad (refuse cause : Outcome α) := by
  intro failure same
  cases same
  exact allowed

/-- A failure that is not bad is not for another kind of answer either. -/
theorem Spares.error {failure : Failure} (spares : Spares bad (.error failure : Outcome α)) :
    Spares bad (.error failure : Outcome β) := by
  intro other same
  cases same
  exact spares failure rfl

theorem Spares.bind {outcome : Outcome α} {next : α → Outcome β} (first : Spares bad outcome)
    (rest : ∀ value, outcome = .ok value → Spares bad (next value)) :
    Spares bad (outcome >>= next) := by
  cases outcome with
  | ok value => exact rest value rfl
  | error failure => exact first.error

theorem Spares.map {outcome : Outcome α} (first : Spares bad outcome) (change : α → β) :
    Spares bad (outcome.map change) := by
  cases outcome with
  | ok value => exact spares_ok _
  | error failure => exact first.error

theorem ordinary_refuse {cause : Fault} (plain : ∀ id, cause ≠ .unknownInstance id) :
    Ordinary (refuse cause : Outcome α) := by
  apply spares_refuse
  intro isOdd
  cases isOdd with
  | unknown id => exact plain id rfl

/-- Only odd failures are bad. -/
def OnlyOdd (bad : Failure → Prop) : Prop := ∀ failure, bad failure → failure.Odd

/-- A fault about what a table lacks. -/
inductive Failure.OfTable : Failure → Prop where
  | unknownClass (cls : String) : OfTable (.fault (.unknownClass cls))
  | unknownField (cls field : String) : OfTable (.fault (.unknownField cls field))
  | noSuchMethod (cls : String) (signature : Signature) :
      OfTable (.fault (.noSuchMethod cls signature))

/-- The outcome is an answer or a fault about what a table lacks. -/
abbrev Tabular (outcome : Outcome α) : Prop := Spares (fun failure => ¬ failure.OfTable) outcome

/-- Faults about what a table lacks are not bad. -/
def SparesTables (bad : Failure → Prop) : Prop := ∀ failure, failure.OfTable → ¬ bad failure

/-- Neither these faults are bad nor the fault that a class is no view of an instance. -/
structure SparesUse (bad : Failure → Prop) : Prop where
  tables : SparesTables bad
  views : ∀ cls staticType, ¬ bad (.fault (.incompatibleStaticType cls staticType))

theorem tabular_refuse {cause : Fault} (ofTable : (Failure.fault cause).OfTable) :
    Tabular (refuse cause : Outcome α) :=
  spares_refuse (not_not_intro ofTable)

/-- What can only end in failures of one kind spares whatever that kind is not. -/
theorem Spares.of_only {kind : Failure → Prop} {outcome : Outcome α}
    (only : Spares (fun failure => ¬ kind failure) outcome)
    (mild : ∀ failure, kind failure → ¬ bad failure) : Spares bad outcome := by
  intro failure same isBad
  exact only failure same fun ofKind => mild failure ofKind isBad

theorem Tabular.spares (mild : SparesTables bad) {outcome : Outcome α}
    (tabular : Tabular outcome) : Spares bad outcome :=
  tabular.of_only mild

/-- A fault about a class or a method that a table lacks. -/
inductive Failure.OfClasses : Failure → Prop where
  | unknownClass (cls : String) : OfClasses (.fault (.unknownClass cls))
  | noSuchMethod (cls : String) (signature : Signature) :
      OfClasses (.fault (.noSuchMethod cls signature))

/-- The outcome is an answer or a fault about the classes of a table. -/
abbrev Classed (outcome : Outcome α) : Prop := Spares (fun failure => ¬ failure.OfClasses) outcome

theorem classed_refuse {cause : Fault} (ofClasses : (Failure.fault cause).OfClasses) :
    Classed (refuse cause : Outcome α) :=
  spares_refuse (not_not_intro ofClasses)

theorem Classed.tabular {outcome : Outcome α} (classed : Classed outcome) : Tabular outcome := by
  apply classed.of_only
  intro failure ofClasses notOfTable
  cases ofClasses with
  | unknownClass cls => exact notOfTable (.unknownClass cls)
  | noSuchMethod cls signature => exact notOfTable (.noSuchMethod cls signature)

theorem Classed.cases {outcome : Outcome α} (classed : Classed outcome) :
    (∃ cause, (Failure.fault cause).OfClasses ∧ outcome = refuse cause) ∨
      ∃ value, outcome = .ok value := by
  cases outcome with
  | ok value => exact .inr ⟨value, rfl⟩
  | error failure =>
      have ofClasses := not_not.mp (classed failure rfl)
      cases ofClasses with
      | unknownClass cls => exact .inl ⟨_, .unknownClass cls, rfl⟩
      | noSuchMethod cls signature => exact .inl ⟨_, .noSuchMethod cls signature, rfl⟩

/-- The fault refuses a definition. -/
def Failure.Constructive (failure : Failure) : Prop :=
  ∃ cause, failure = .fault cause ∧ cause.isConstruction = true

/-- The outcome is an answer or a fault that refuses a definition. -/
abbrev Definitional (outcome : Outcome α) : Prop :=
  Spares (fun failure => ¬ failure.Constructive) outcome

/-- Faults that refuse a definition are not bad. -/
def SparesDefinitions (bad : Failure → Prop) : Prop :=
  ∀ failure, failure.Constructive → ¬ bad failure

theorem definitional_refuse {cause : Fault} (isConstruction : cause.isConstruction = true) :
    Definitional (refuse cause : Outcome α) :=
  spares_refuse (not_not_intro ⟨cause, rfl, isConstruction⟩)

/-- The fault that an instance is unknown is not bad. -/
def SparesMissing (bad : Failure → Prop) : Prop := ∀ id, ¬ bad (.fault (.unknownInstance id))

theorem OnlyOdd.sparesTables (odd : OnlyOdd bad) : SparesTables bad := by
  intro failure ofTable isBad
  cases odd failure isBad <;> cases ofTable

theorem OnlyOdd.sparesUse (odd : OnlyOdd bad) : SparesUse bad where
  tables := odd.sparesTables
  views cls staticType isBad := by cases odd _ isBad

theorem OnlyOdd.sparesDefinitions (odd : OnlyOdd bad) : SparesDefinitions bad := by
  rintro _ ⟨cause, rfl, isConstruction⟩ isBad
  cases odd _ isBad
  cases isConstruction

theorem Spares.of_unnumbered (odd : OnlyOdd bad) (mild : ¬ bad .breach) {outcome : Outcome α}
    (unnumbered : Unnumbered outcome) : Spares bad outcome := by
  rintro failure rfl isBad
  cases odd failure isBad with
  | breach => exact mild isBad
  | unknown id => exact unnumbered id rfl

/-- A look-up without a check spares all faults. -/
theorem Spares.of_faultless (mild : ¬ bad .breach) {outcome : Outcome α}
    (faultless : Faultless outcome) : Spares bad outcome := by
  rintro (cause | _) rfl
  · exact absurd rfl (faultless cause)
  · exact mild

theorem Ordinary.unnumbered {outcome : Outcome α} (ordinary : Ordinary outcome) :
    Unnumbered outcome :=
  fun id same => ordinary _ same (.unknown id)

end Outcomes

/-! ## Tables -/

section Tables
variable {table : ClassTable} {decls : List ClassDecl}

theorem classed_get (table : ClassTable) (id : ClassId) : Classed (table.get id) := by
  unfold ClassTable.get
  split
  · exact spares_ok _
  · exact classed_refuse (.unknownClass _)

theorem classed_idOf (table : ClassTable) (name : String) : Classed (table.idOf name) := by
  unfold ClassTable.idOf
  split
  · exact spares_ok _
  · exact classed_refuse (.unknownClass _)

theorem spares_classAt {bad : Failure → Prop} {id : ClassId} {cls : Class}
    (found : table.find? id = some cls) : Spares bad (table.classAt id) := by
  rw [ClassTable.classAt_of_find? found]
  exact spares_ok cls

theorem definitional_checkName (table : ClassTable) (decl : ClassDecl) :
    Definitional (table.checkName decl) := by
  unfold ClassTable.checkName
  split
  · exact definitional_refuse rfl
  · split
    · exact definitional_refuse rfl
    · exact spares_ok _

theorem definitional_checkMembers (decl : ClassDecl) : Definitional decl.checkMembers := by
  unfold ClassDecl.checkMembers
  split
  · exact definitional_refuse rfl
  · split
    · exact definitional_refuse rfl
    · exact spares_ok _

variable (holds : table.Holds decls)
include holds

theorem ClassTable.Holds.exists_of_idOf {name : String} {id : ClassId}
    (run : table.idOf name = .ok id) : ∃ cls, table.find? id = some cls := by
  unfold idOf at run
  split at run
  · rename_i found named
    cases run
    obtain ⟨cls, isFound, _⟩ := (holds.named name _).mp named
    exact ⟨cls, isFound⟩
  · cases run

theorem classed_lookup (name : String) : Classed (table.lookup name) := by
  apply (classed_idOf table name).bind
  intro id run
  obtain ⟨cls, found⟩ := holds.exists_of_idOf run
  exact spares_classAt found

theorem spares_isSubclassOf {bad : Failure → Prop} {id ancestor : ClassId} {cls upper : Class}
    (found : table.find? id = some cls) (upperFound : table.find? ancestor = some upper) :
    Spares bad (table.isSubclassOf id ancestor) := by
  obtain ⟨chain, chained⟩ := holds.exists_chain found
  rw [chained.isSubclassOf_eq holds found upperFound]
  exact spares_ok _

theorem definitional_parentOf (decl : ClassDecl) : Definitional (table.parentOf decl) := by
  unfold ClassTable.parentOf
  split
  · exact spares_ok _
  · split
    · exact definitional_refuse rfl
    · rename_i id named
      obtain ⟨cls, found, _⟩ := (holds.named _ id).mp named
      exact (spares_classAt found).map some

theorem definitional_define (decl : ClassDecl) : Definitional (table.define decl) := by
  apply (definitional_checkName table decl).bind
  intro _ _
  apply (definitional_parentOf holds decl).bind
  intro parent _
  apply (definitional_checkMembers decl).bind
  intro _ _
  exact spares_ok _

theorem constructive_of_defineAll (more : List ClassDecl) {reached : ClassTable}
    {failure : Failure} (run : table.defineAll more = (reached, some failure)) :
    failure.Constructive := by
  induction more generalizing table decls with
  | nil => cases run
  | cons decl rest ih =>
      unfold ClassTable.defineAll at run
      cases defined : table.define decl with
      | error cause =>
          simp only [defined, Prod.mk.injEq, Option.some.injEq] at run
          obtain ⟨rfl, rfl⟩ := run
          exact not_not.mp (definitional_define holds decl cause defined)
      | ok made =>
          rw [defined] at run
          exact ih (ClassTable.holds_define holds defined) run

/-- Every table can be closed. -/
theorem spares_ofTable {bad : Failure → Prop} : Spares bad (Hierarchy.ofTable table) := by
  obtain ⟨hierarchy, run, _⟩ := Hierarchy.ofTable_eq_ok holds
  rw [run]
  exact spares_ok _

omit holds in
/-- A table is loaded, or one of its definitions is refused. -/
theorem definitional_load (tag : Nat) (decls : List ClassDecl) :
    Definitional (Hierarchy.load tag decls).2 := by
  have holds := ClassTable.holds_empty tag
  unfold Hierarchy.load
  rcases run : (ClassTable.empty tag).defineAll decls with ⟨classes, _ | failure⟩
  · exact spares_ofTable (ClassTable.holds_of_defineAll holds decls run)
  · intro cause same
    cases same
    exact not_not_intro (constructive_of_defineAll holds decls run)

end Tables

namespace Hierarchy

variable {hierarchy : Hierarchy} {decls : List ClassDecl} (flat : hierarchy.Flat decls)
include flat

theorem Flat.classed_tableOf (id : ClassId) : Classed (hierarchy.tableOf id) := by
  apply (classed_get hierarchy.classes id).bind
  intro cls run
  have found := ClassTable.find?_of_get run
  obtain ⟨chain, chained⟩ := flat.holds.exists_chain found
  obtain ⟨table, stored, _⟩ := flat.tables id cls chain found chained
  rw [tableAt, flat.holds.id_of_find? found, stored]
  exact spares_ok table

theorem Flat.classed_resolve (id : ClassId) (signature : Signature) :
    Classed (hierarchy.resolve id signature) := by
  cases found : hierarchy.classes.find? id with
  | none =>
      have unknown : hierarchy.resolve id signature = refuse (.unknownClass id.text) := by
        simp [resolve, tableOf, ClassTable.get, found, refuse, bind, Except.bind]
      rw [unknown]
      exact classed_refuse (.unknownClass _)
  | some cls =>
      obtain ⟨chain, chained⟩ := flat.holds.exists_chain found
      rw [flat.resolve_eq found chained]
      cases nearest chain signature with
      | none => exact classed_refuse (.noSuchMethod _ _)
      | some method => exact spares_ok method

theorem Flat.classed_inheritedMethod {id : ClassId} {declaring : Class}
    (found : hierarchy.classes.find? id = some declaring) (signature : Signature) :
    Classed (hierarchy.inheritedMethod id signature) := by
  cases inherits : declaring.parent with
  | none =>
      rw [inheritedMethod_of_root found inherits]
      exact classed_refuse (.noSuchMethod _ _)
  | some parent =>
      rw [inheritedMethod_of_parent found inherits]
      exact flat.classed_resolve parent signature

theorem Flat.classed_permits (staticType : ClassId) (signature : Signature) :
    Classed (hierarchy.permits staticType signature) := by
  rw [permits_eq_map]
  exact (flat.classed_resolve staticType signature).map _

end Hierarchy

/-! ## Instances and stores -/

/-- A field without a position is unknown to the class, unless the class is of another
table. -/
theorem Instance.position_cases (inst : Instance) (view : Class) (field : String) :
    (∃ slot, inst.position view field = .ok slot) ∨
      inst.position view field = refuse (.unknownField view.name field) ∨
      inst.position view field = refuse (.unknownClass view.name) := by
  unfold position
  split
  · split
    · split
      · exact .inl ⟨_, rfl⟩
      · exact .inr (.inl rfl)
    · exact .inr (.inl rfl)
  · exact .inr (.inr rfl)

theorem tabular_position (inst : Instance) (view : Class) (field : String) :
    Tabular (inst.position view field) := by
  obtain ⟨slot, placed⟩ | unplaced | foreign := inst.position_cases view field
  · rw [placed]
    exact spares_ok slot
  · rw [unplaced]
    exact tabular_refuse (.unknownField _ _)
  · rw [foreign]
    exact tabular_refuse (.unknownClass _)

/-- Where a field has a position, the instance has a value. -/
theorem tabular_instance_read (inst : Instance) (view : Class) (field : String) :
    Tabular (inst.read view field) := by
  apply (tabular_position inst view field).bind
  intro slot run
  have inside := ((inst.position_eq_ok_iff view field slot).mp run).2.2
  rw [List.getElem?_eq_getElem inside]
  exact spares_ok _

theorem tabular_instance_write (inst : Instance) (view : Class) (field : String)
    (value : Value) : Tabular (inst.write view field value) := by
  apply (tabular_position inst view field).bind
  intro slot _
  exact spares_ok _

section Stores
variable {bad : Failure → Prop} {store : Store} {id : InstanceNo}

/-- The instance is there, if it is bad to miss it. -/
def Store.Serves (bad : Failure → Prop) (store : Store) (id : InstanceNo) : Prop :=
  bad (.fault (.unknownInstance id)) → ∃ inst, store.find? id = some inst

theorem Store.Serves.allows (serves : store.Serves bad id) (dead : store.find? id = none) :
    ¬ bad (.fault (.unknownInstance id)) := by
  intro isBad
  obtain ⟨inst, live⟩ := serves isBad
  rw [dead] at live
  cases live

theorem SparesMissing.serves (missing : SparesMissing bad) (store : Store) (id : InstanceNo) :
    store.Serves bad id :=
  fun isBad => absurd isBad (missing id)

theorem spares_get (serves : store.Serves bad id) : Spares bad (store.get id) := by
  unfold Store.get
  split
  · exact spares_ok _
  · rename_i dead
    exact spares_refuse (serves.allows dead)

section Tabular
variable (mild : SparesTables bad) (serves : store.Serves bad id)
include mild serves

theorem spares_read (classes : ClassTable) (field : String) :
    Spares bad (store.read classes id field) := by
  apply (spares_get serves).bind
  intro inst _
  apply ((classed_get classes inst.cls).tabular.spares mild).bind
  intro view _
  exact (tabular_instance_read inst view field).spares mild

theorem spares_write (classes : ClassTable) (field : String) (value : Value) :
    Spares bad (store.write classes id field value) := by
  apply (spares_get serves).bind
  intro inst _
  apply ((classed_get classes inst.cls).tabular.spares mild).bind
  intro view _
  apply ((tabular_instance_write inst view field value).spares mild).bind
  intro changed _
  exact spares_ok _

theorem spares_classOf (dispatcher : Dispatcher) :
    Spares bad (dispatcher.classOf id store).result := by
  cases live : store.find? id with
  | none =>
      rw [Dispatcher.classOf_of_dead live]
      exact spares_refuse (serves.allows live)
  | some inst =>
      cases found : dispatcher.hierarchy.classes.find? inst.cls with
      | none =>
          rw [Dispatcher.classOf_of_foreign live found]
          exact (tabular_refuse (.unknownClass _)).spares mild
      | some cls =>
          rw [Dispatcher.classOf_of_live live found]
          exact spares_ok _

end Tabular

theorem spares_readDeclared (use : SparesUse bad) (serves : store.Serves bad id)
    {classes : ClassTable} {decls : List ClassDecl} (holds : classes.Holds decls)
    (declaring field : String) : Spares bad (store.readDeclared classes id declaring field) := by
  apply ((classed_lookup holds declaring).tabular.spares use.tables).bind
  intro view viewRun
  apply (spares_get serves).bind
  intro inst _
  apply ((classed_get classes inst.cls).tabular.spares use.tables).bind
  intro exact exactRun
  have exactFound := ClassTable.find?_of_get exactRun
  rw [← holds.id_of_find? exactFound] at exactFound
  apply (spares_isSubclassOf holds exactFound (holds.find?_of_lookup viewRun)).bind
  intro below _
  split
  · exact (tabular_instance_read inst view field).spares use.tables
  · exact spares_refuse (use.views _ _)

end Stores

/-! ## Actions -/

namespace Action

variable {α β : Type} {bad : Failure → Prop}

/-- Whatever store the action runs on, it does not end with a bad failure. -/
def Spares (bad : Failure → Prop) (action : Action α) : Prop :=
  ∀ store, Lineage.Spares bad (action store).result

theorem spares_lift {outcome : Outcome α} (spares : Lineage.Spares bad outcome) :
    (lift outcome).Spares bad :=
  fun _ => spares

theorem spares_query {ask : Store → Outcome α}
    (spares : ∀ store, Lineage.Spares bad (ask store)) : (query ask).Spares bad :=
  spares

theorem spares_update {change : Store → Outcome Store}
    (spares : ∀ store, Lineage.Spares bad (change store)) : (update change).Spares bad := by
  intro store
  have spared := spares store
  unfold update
  cases changed : change store with
  | error failure =>
      rw [changed] at spared
      exact spared.error
  | ok after => exact spares_ok _

/-- What comes after an action is needed for values only that the action can have. -/
theorem Spares.bind {action : Action α} {next : α → Action β} (first : action.Spares bad)
    (rest : ∀ store value, (action store).result = .ok value → (next value).Spares bad) :
    (action >>= next).Spares bad := by
  intro store
  have spared := first store
  rcases run : action store with ⟨failure | value, reached, events⟩
  · rw [run_bind_of_error run]
    rw [run] at spared
    exact spared.error
  · rw [run_bind_of_ok run]
    have isValue : (action store).result = .ok value := by rw [run]
    exact rest store value isValue reached

theorem spares_pure (value : α) : (pure value : Action α).Spares bad := fun _ => spares_ok value

theorem spares_raise {cause : Fault} (allowed : ¬ bad (.fault cause)) :
    (raise cause : Action α).Spares bad :=
  spares_lift (spares_refuse allowed)

theorem spares_allocate (cls : Class) (domain : Domain) : (allocate cls domain).Spares bad :=
  fun _ => spares_ok _

theorem spares_allocateNamed (mild : SparesTables bad) {classes : ClassTable}
    {decls : List ClassDecl} (holds : classes.Holds decls) (cls : String) (domain : Domain) :
    (allocateNamed classes cls domain).Spares bad := by
  apply (spares_lift ((classed_lookup holds cls).tabular.spares mild)).bind
  intro _ found _
  exact spares_allocate found domain

variable (missing : SparesMissing bad)
include missing

theorem spares_domainOf (id : InstanceNo) :
    (query fun store => store.domainOf id).Spares bad :=
  spares_query fun store => (spares_get (missing.serves store id)).map (·.domain)

theorem spares_release (id : InstanceNo) : (release id).Spares bad := by
  intro store
  unfold release Store.release
  have spares := spares_get (missing.serves store id)
  cases live : store.get id with
  | error failure =>
      rw [live] at spares
      exact spares.error
  | ok inst => exact spares_ok _

end Action

/-! Of the actions of dispatchers those that call no method. -/

namespace Dispatcher

variable {bad : Failure → Prop} (dispatcher : Dispatcher) (missing : SparesMissing bad)
include missing

section Tables
variable (mild : SparesTables bad)
include mild

theorem spares_classOf (target : InstanceNo) : (dispatcher.classOf target).Spares bad :=
  fun store => Lineage.spares_classOf mild (missing.serves store target) dispatcher

theorem spares_exactReference (target : InstanceNo) :
    (dispatcher.exactReference target).Spares bad := by
  apply (dispatcher.spares_classOf missing mild target).bind
  intro _ exact _
  exact Action.spares_pure _

theorem spares_read (id : InstanceNo) (field : String) : (dispatcher.read id field).Spares bad :=
  Action.spares_query fun store =>
    Lineage.spares_read mild (missing.serves store id) dispatcher.hierarchy.classes field

theorem spares_write (id : InstanceNo) (field : String) (value : Value) :
    (dispatcher.write id field value).Spares bad :=
  Action.spares_update fun store =>
    Lineage.spares_write mild (missing.serves store id) dispatcher.hierarchy.classes field value

end Tables

variable {decls : List ClassDecl} (flat : dispatcher.hierarchy.Flat decls)
include flat

theorem spares_allocateFor (mild : SparesTables bad) (receiver : InstanceNo) (cls : String)
    (domain : Option Domain) : (dispatcher.allocateFor receiver cls domain).Spares bad := by
  cases domain with
  | some domain => exact Action.spares_allocateNamed mild flat.holds cls domain
  | none =>
      apply (Action.spares_domainOf missing receiver).bind
      intro _ domain _
      exact Action.spares_allocateNamed mild flat.holds cls domain

theorem spares_reference (use : SparesUse bad) (target : InstanceNo) (staticType : String) :
    (dispatcher.reference target staticType).Spares bad := by
  apply (Action.spares_lift
    ((classed_idOf dispatcher.hierarchy.classes staticType).tabular.spares use.tables)).bind
  intro _ staticId named
  obtain ⟨static, staticFound⟩ := flat.holds.exists_of_idOf named
  apply (dispatcher.spares_classOf missing use.tables target).bind
  intro store id known
  obtain ⟨inst, exact, _, _, rfl, found⟩ := exists_of_classOf flat known
  apply (Action.spares_lift (spares_isSubclassOf flat.holds found staticFound)).bind
  intro _ below _
  split
  · exact Action.spares_pure _
  · apply (Action.spares_lift (spares_classAt found)).bind
    intro _ exactClass _
    apply (Action.spares_lift (spares_classAt staticFound)).bind
    intro _ staticClass _
    exact Action.spares_raise (use.views _ _)

end Dispatcher

end Lineage
