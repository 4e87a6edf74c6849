import Lineage.Proofs.Store.Evolution

/-!
# Views of an instance

A class and each of its ancestors is a view of an instance of the class.  A view finds a
field in the slot of the nearest declaration on its own chain, at a position of its own
layout.  Layouts of a chain are prefixes of one another and hold every declaration once, so
two views mean the same slot if and only if they find the same declaration
(`Fits.slot_eq_iff`): a write through one is seen through the other exactly then
(`Fits.viewed`).  The operations of a store are those of the instance that it holds
(`Store.shows_of_find?`), and `readDeclared_eq_error_iff` says which fault wins where a
declared read fails.
-/

set_option autoImplicit false

namespace Lineage

/-- Seen from the view, the nearest declaration of the field is that of the owner. -/
def ClassTable.Locates (table : ClassTable) (view : Class) (field : String) (owner : Class) :
    Prop :=
  ∃ chain, table.ancestors view.id = .ok chain ∧
    chain.find? (·.declaresField field) = some owner

/-- What the classes of a chain see of an instance, and what a write through one of them
changes for the others. -/
structure Instance.Viewed (inst : Instance) (table : ClassTable) (chain : List Class) : Prop where
  write_iff : ∀ view ∈ chain, ∀ field value,
    (∃ changed, inst.write view field value = .ok changed) ↔
      ∃ owner, table.Locates view field owner
  refused : ∀ view ∈ chain, ∀ field, (∀ owner, ¬ table.Locates view field owner) →
    inst.read view field = refuse (.unknownField view.name field) ∧
    ∀ value, inst.write view field value = refuse (.unknownField view.name field)
  /-- One declaration, one slot. -/
  same : ∀ view ∈ chain, ∀ other ∈ chain, ∀ field value changed owner,
    inst.write view field value = .ok changed → table.Locates view field owner →
      table.Locates other field owner → changed.read other field = .ok value
  /-- Two declarations, two slots. -/
  apart : ∀ view ∈ chain, ∀ other ∈ chain, ∀ field wanted value changed,
    inst.write view field value = .ok changed →
      (¬ (wanted = field ∧
        ∃ owner, table.Locates view field owner ∧ table.Locates other field owner)) →
      changed.read other wanted = inst.read other wanted

namespace ClassTable

variable {table : ClassTable} {decls : List ClassDecl} {cls view : Class} {chain : List Class}

theorem Chain.locates_iff (holds : table.Holds decls) (found : table.find? view.id = some view)
    (chained : table.Chain view chain) (field : String) (owner : Class) :
    table.Locates view field owner ↔ chain.find? (·.declaresField field) = some owner := by
  have whole := chained.ancestors_eq holds found
  constructor
  · rintro ⟨other, isChain, declared⟩
    rw [whole] at isChain
    cases isChain
    exact declared
  · exact fun declared => ⟨chain, whole, declared⟩

theorem Locates.unique {field : String} {owner other : Class}
    (located : table.Locates view field owner) (otherLocated : table.Locates view field other) :
    owner = other := by
  obtain ⟨chain, isChain, declared⟩ := located
  obtain ⟨otherChain, isOther, otherDeclared⟩ := otherLocated
  cases isChain.symm.trans isOther
  exact Option.some.inj (declared.symm.trans otherDeclared)

theorem Holds.lookup_of_unnamed (holds : table.Holds decls) {name : String}
    (unnamed : ∀ cls, table.find? cls.id = some cls → cls.name ≠ name) :
    table.lookup name = refuse (.unknownClass name) := by
  cases known : table.names.find? name with
  | none => simp only [lookup, idOf, known]; rfl
  | some id =>
      obtain ⟨cls, found, isName⟩ := (holds.named name id).mp known
      exact absurd isName (unnamed cls (holds.id_of_find? found ▸ found))

end ClassTable

section Fitting
variable {table : ClassTable} {decls : List ClassDecl} {cls : Class} {chain : List Class}
  {inst changed : Instance} {view other : Class} {field wanted : String} {value : Value}

theorem Instance.write_eq_ok (run : inst.write view field value = .ok changed) :
    ∃ slot, inst.position view field = .ok slot ∧
      changed = { inst with slots := inst.slots.set slot value } := by
  unfold write at run
  cases placed : inst.position view field with
  | error failure => simp [placed, bind, Except.bind] at run
  | ok slot =>
      simp only [placed, bind, Except.bind, pure, Except.pure, Except.ok.injEq] at run
      exact ⟨slot, rfl, run.symm⟩

theorem Instance.read_of_position {slot : Nat} (placed : inst.position view field = .ok slot)
    (inside : slot < inst.slots.length) : inst.read view field = .ok inst.slots[slot] := by
  simp only [read, placed, bind, Except.bind, List.getElem?_eq_getElem inside, pure, Except.pure]

/-- A write changes no position. -/
theorem Instance.position_set (inst : Instance) (slot : Nat) (value : Value) (view : Class)
    (field : String) :
    Instance.position { inst with slots := inst.slots.set slot value } view field =
      inst.position view field := by
  simp only [position, List.length_set]

theorem Fits.write (fits : Fits table inst cls)
    (run : inst.write view field value = .ok changed) : Fits table changed cls := by
  obtain ⟨slot, _, rfl⟩ := Instance.write_eq_ok run
  exact fits.set slot value

variable (holds : table.Holds decls) (chained : table.Chain cls chain)
  (fits : Fits table inst cls) (inChain : view ∈ chain)
include holds chained fits inChain

/-- A located field is in the slot of its declaration. -/
theorem Fits.position_of_locates {owner : Class} (located : table.Locates view field owner) :
    ∃ slot initial, inst.position view field = .ok slot ∧ slot < inst.slots.length ∧
      cls.slots[slot]? = some ⟨field, owner.id, initial⟩ ∧ owner ∈ chain := by
  have own := fits.own holds
  have viewFound := chained.find?_of_mem holds own inChain
  obtain ⟨before, after, split, above⟩ := chained.exists_of_mem inChain
  have declared := (above.locates_iff holds viewFound field owner).mp located
  obtain ⟨slot, initial, placed, inside, stands⟩ :=
    fits.exists_position holds chained inChain above declared
  refine ⟨slot, initial, placed, inside, stands, ?_⟩
  rw [split]
  exact List.mem_append_right before (List.mem_of_find?_eq_some declared)

theorem Fits.position_of_unlocated (unlocated : ∀ owner, ¬ table.Locates view field owner) :
    inst.position view field = refuse (.unknownField view.name field) := by
  have viewFound := chained.find?_of_mem holds (fits.own holds) inChain
  obtain ⟨before, after, split, above⟩ := chained.exists_of_mem inChain
  refine fits.position_of_undeclared holds viewFound above ?_
  rw [← Option.not_isSome_iff_eq_none]
  intro declared
  obtain ⟨owner, declared⟩ := Option.isSome_iff_exists.mp declared
  exact unlocated owner ((above.locates_iff holds viewFound field owner).mpr declared)

theorem Fits.exists_owner {slot : Nat} (placed : inst.position view field = .ok slot) :
    ∃ owner, table.Locates view field owner := by
  by_contra unlocated
  rw [fits.position_of_unlocated holds chained inChain (not_exists.mp unlocated)] at placed
  cases placed

/-- Two views find a field in one slot if and only if they find one declaration. -/
theorem Fits.slot_eq_iff (otherIn : other ∈ chain) {slot otherSlot : Nat}
    (placed : inst.position view field = .ok slot)
    (otherPlaced : inst.position other wanted = .ok otherSlot) :
    otherSlot = slot ↔ wanted = field ∧
      ∃ owner, table.Locates view field owner ∧ table.Locates other field owner := by
  have own := fits.own holds
  obtain ⟨owner, located⟩ := fits.exists_owner holds chained inChain placed
  obtain ⟨otherOwner, otherLocated⟩ := fits.exists_owner holds chained otherIn otherPlaced
  obtain ⟨_, initial, isPlaced, _, stands, ownerIn⟩ :=
    fits.position_of_locates holds chained inChain located
  obtain ⟨_, otherInitial, isOtherPlaced, _, otherStands, otherOwnerIn⟩ :=
    fits.position_of_locates holds chained otherIn otherLocated
  cases placed.symm.trans isPlaced
  cases otherPlaced.symm.trans isOtherPlaced
  constructor
  · rintro rfl
    have sameSlot := Option.some.inj (otherStands.symm.trans stands)
    obtain ⟨sameField, sameOwner, _⟩ := Slot.mk.inj sameSlot
    subst sameField
    have ownerFound := chained.find?_of_mem holds own ownerIn
    have otherFound := chained.find?_of_mem holds own otherOwnerIn
    rw [sameOwner, ownerFound] at otherFound
    cases otherFound
    exact ⟨rfl, owner, located, otherLocated⟩
  · rintro ⟨rfl, both, isLocated, isOtherLocated⟩
    cases located.unique isLocated
    cases otherLocated.unique isOtherLocated
    -- the layout of the exact class holds a declaration in one slot only
    have distinct := chained.nodup_keys holds own
    have inside := (List.getElem?_eq_some_iff.mp otherStands).1
    refine (List.getElem?_inj (by rwa [List.length_map]) distinct).mp ?_
    rw [List.getElem?_map, List.getElem?_map, otherStands, stands]
    rfl

/-- A write is read through every view that finds the same declaration. -/
theorem Fits.read_of_shared (otherIn : other ∈ chain)
    (run : inst.write view field value = .ok changed) {owner : Class}
    (located : table.Locates view field owner) (otherLocated : table.Locates other field owner) :
    changed.read other field = .ok value := by
  obtain ⟨slot, placed, rfl⟩ := Instance.write_eq_ok run
  have inside := ((inst.position_eq_ok_iff view field slot).mp placed).2.2
  obtain ⟨otherSlot, _, otherPlaced, _⟩ :=
    fits.position_of_locates holds chained otherIn otherLocated
  obtain rfl := (fits.slot_eq_iff holds chained inChain otherIn placed otherPlaced).mpr
    ⟨rfl, owner, located, otherLocated⟩
  simp [Instance.read, Instance.position_set, otherPlaced, inside, bind, Except.bind, pure,
    Except.pure]

theorem Fits.read_of_apart (otherIn : other ∈ chain)
    (run : inst.write view field value = .ok changed)
    (apart : ¬ (wanted = field ∧
      ∃ owner, table.Locates view field owner ∧ table.Locates other field owner)) :
    changed.read other wanted = inst.read other wanted := by
  obtain ⟨slot, placed, rfl⟩ := Instance.write_eq_ok run
  unfold Instance.read
  rw [Instance.position_set]
  cases otherPlaced : inst.position other wanted with
  | error failure => rfl
  | ok otherSlot =>
      have isOther : slot ≠ otherSlot := fun same => apart
        ((fits.slot_eq_iff holds chained inChain otherIn placed otherPlaced).mp same.symm)
      simp [List.getElem?_set_ne isOther, bind, Except.bind]

omit inChain in
theorem Fits.viewed : inst.Viewed table chain where
  write_iff view inChain field value := by
    constructor
    · rintro ⟨changed, run⟩
      obtain ⟨slot, placed, _⟩ := Instance.write_eq_ok run
      exact fits.exists_owner holds chained inChain placed
    · rintro ⟨owner, located⟩
      obtain ⟨slot, _, placed, _⟩ := fits.position_of_locates holds chained inChain located
      exact ⟨_, by rw [Instance.write, placed]; rfl⟩
  refused view inChain field unlocated := by
    have nowhere := fits.position_of_unlocated holds chained inChain unlocated
    exact ⟨by rw [Instance.read, nowhere]; rfl, fun _ => by rw [Instance.write, nowhere]; rfl⟩
  same view inChain other otherIn _ _ _ _ run located otherLocated :=
    fits.read_of_shared holds chained inChain otherIn run located otherLocated
  apart view inChain other otherIn _ _ _ _ run differs :=
    fits.read_of_apart holds chained inChain otherIn run differs

end Fitting

/-! ## Stores -/

namespace Store

/-- What a store makes of an instance that it holds.  `get` gives the snapshot. -/
structure Shows (store : Store) (table : ClassTable) (id : InstanceNo) (inst : Instance)
    (cls : Class) (chain : List Class) : Prop where
  read : ∀ field, store.read table id field = inst.read cls field
  write : ∀ field value, store.write table id field value =
    (inst.write cls field value).map fun changed => store.put id (some changed)
  /-- A write changes this instance as a write to a copy does, and no other. -/
  written : ∀ field value after, store.write table id field value = .ok after →
    after.next = store.next ∧ (∀ other, other ≠ id → after.find? other = store.find? other) ∧
      ∃ changed, inst.write cls field value = .ok changed ∧ after.find? id = some changed
  declared : ∀ view ∈ chain, ∀ field,
    store.readDeclared table id view.name field = inst.read view field
  snapshot : store.get id = .ok inst
  released : ∃ left, store.release id = .ok (inst, left)

/-- The fault of a declared read.  The premises of each fault exclude those that win
over it. -/
inductive RefusesDeclared (store : Store) (table : ClassTable) (id : InstanceNo)
    (declaring field : String) : Fault → Prop where
  | unnamed (unnamed : ∀ view, table.find? view.id = some view → view.name ≠ declaring) :
      RefusesDeclared store table id declaring field (.unknownClass declaring)
  | dead {view : Class} (known : table.find? view.id = some view) (named : view.name = declaring)
      (dead : store.find? id = none) :
      RefusesDeclared store table id declaring field (.unknownInstance id)
  | foreign {view : Class} {inst : Instance} (known : table.find? view.id = some view)
      (named : view.name = declaring) (live : store.find? id = some inst)
      (foreign : table.find? inst.cls = none) :
      RefusesDeclared store table id declaring field (.unknownClass inst.cls.text)
  | aside {view cls : Class} {inst : Instance} {chain : List Class}
      (known : table.find? view.id = some view) (named : view.name = declaring)
      (live : store.find? id = some inst) (found : table.find? inst.cls = some cls)
      (isChain : table.ancestors cls.id = .ok chain) (aside : view ∉ chain) :
      RefusesDeclared store table id declaring field (.incompatibleStaticType cls.name declaring)
  | undeclared {view cls : Class} {inst : Instance} {chain : List Class}
      (known : table.find? view.id = some view) (named : view.name = declaring)
      (live : store.find? id = some inst) (found : table.find? inst.cls = some cls)
      (isChain : table.ancestors cls.id = .ok chain) (above : view ∈ chain)
      (undeclared : ∀ owner, ¬ table.Locates view field owner) :
      RefusesDeclared store table id declaring field (.unknownField declaring field)

section Holding
variable {store : Store} {table : ClassTable} {decls : List ClassDecl} {id : InstanceNo}
  {inst : Instance} {cls : Class} {chain : List Class} (holds : table.Holds decls)
include holds

theorem readDeclared_of_mem (chained : table.Chain cls chain) (live : store.find? id = some inst)
    (fits : Fits table inst cls) {view : Class} (inChain : view ∈ chain) (field : String) :
    store.readDeclared table id view.name field = inst.read view field := by
  have viewFound := chained.find?_of_mem holds (fits.own holds) inChain
  rw [readDeclared_of_find? holds chained live fits viewFound,
    if_pos (List.mem_map_of_mem inChain)]

theorem shows_of_find? (chained : table.Chain cls chain) (live : store.find? id = some inst)
    (fits : Fits table inst cls) : store.Shows table id inst cls chain where
  read := read_of_find? live fits.found
  write := write_of_find? live fits.found
  written field value after run := by
    rw [write_of_find? live fits.found] at run
    cases wrote : inst.write cls field value with
    | error failure => simp [wrote, Except.map] at run
    | ok changed =>
        simp only [wrote, Except.map, Except.ok.injEq] at run
        subst run
        obtain ⟨positive, given⟩ := bounds_of_find? live
        refine ⟨store.next_put id _, ?_, changed, rfl, ?_⟩
        · intro other isOther
          rw [store.find?_put id other _ positive given, if_neg isOther]
        · rw [store.find?_put id id _ positive given, if_pos rfl]
  declared view inChain field := readDeclared_of_mem holds chained live fits inChain field
  snapshot := (store.get_eq_ok_iff id inst).mpr live
  released := ⟨_, (store.release_eq_ok_iff _ id inst).mpr ⟨live, rfl⟩⟩

variable {declaring field : String}
  (fitting : ∀ inst cls, store.find? id = some inst → table.find? inst.cls = some cls →
    Fits table inst cls)
include fitting

theorem readDeclared_of_refuses {cause : Fault}
    (refuses : store.RefusesDeclared table id declaring field cause) :
    store.readDeclared table id declaring field = refuse cause := by
  cases refuses with
  | unnamed unnamed => rw [readDeclared, holds.lookup_of_unnamed unnamed]; rfl
  | dead known named dead =>
      subst named
      simp only [readDeclared, holds.lookup_of_find? known, get, dead, bind, Except.bind]
      rfl
  | foreign known named live foreign =>
      subst named
      simp only [readDeclared, holds.lookup_of_find? known, get, live, ClassTable.get, foreign,
        bind, Except.bind]
      rfl
  | @aside view cls inst chain known named live found isChain aside =>
      subst named
      have fits := fitting inst cls live found
      have own := fits.own holds
      obtain ⟨whole, chained⟩ := holds.exists_chain own
      cases (chained.ancestors_eq holds own).symm.trans isChain
      rw [readDeclared_of_find? holds chained live fits known, if_neg]
      exact fun listed => aside ((chained.id_mem_iff holds own known).mp listed)
  | @undeclared view cls inst chain known named live found isChain above undeclared =>
      subst named
      have fits := fitting inst cls live found
      have own := fits.own holds
      obtain ⟨whole, chained⟩ := holds.exists_chain own
      cases (chained.ancestors_eq holds own).symm.trans isChain
      rw [readDeclared_of_mem holds chained live fits above]
      exact ((fits.viewed holds chained).refused view above field undeclared).1

theorem readDeclared_or_refuses (declaring field : String) :
    (∃ value, store.readDeclared table id declaring field = .ok value) ∨
      ∃ cause, store.RefusesDeclared table id declaring field cause := by
  by_cases unnamed : ∀ view, table.find? view.id = some view → view.name ≠ declaring
  · exact .inr ⟨_, .unnamed unnamed⟩
  push Not at unnamed
  obtain ⟨view, known, named⟩ := unnamed
  cases live : store.find? id with
  | none => exact .inr ⟨_, .dead known named live⟩
  | some inst =>
      cases found : table.find? inst.cls with
      | none => exact .inr ⟨_, .foreign known named live found⟩
      | some cls =>
          have fits := fitting inst cls live found
          have own := fits.own holds
          obtain ⟨chain, chained⟩ := holds.exists_chain own
          have isChain := chained.ancestors_eq holds own
          by_cases above : view ∈ chain
          · by_cases located : ∃ owner, table.Locates view field owner
            · obtain ⟨owner, located⟩ := located
              obtain ⟨slot, _, placed, inside, _⟩ :=
                fits.position_of_locates holds chained above located
              subst named
              rw [readDeclared_of_mem holds chained live fits above]
              exact .inl ⟨_, Instance.read_of_position placed inside⟩
            · exact .inr ⟨_, .undeclared known named live found isChain above
                (not_exists.mp located)⟩
          · exact .inr ⟨_, .aside known named live found isChain above⟩

theorem readDeclared_eq_error_iff (declaring field : String) (failure : Failure) :
    store.readDeclared table id declaring field = .error failure ↔
      ∃ cause, store.RefusesDeclared table id declaring field cause ∧
        failure = .fault cause := by
  constructor
  · intro failed
    rcases readDeclared_or_refuses holds fitting declaring field with
      ⟨value, answered⟩ | ⟨cause, refuses⟩
    · cases answered.symm.trans failed
    · cases (readDeclared_of_refuses holds fitting refuses).symm.trans failed
      exact ⟨cause, refuses, rfl⟩
  · rintro ⟨cause, refuses, rfl⟩
    exact readDeclared_of_refuses holds fitting refuses

end Holding

end Store

/-- Every class of a table and all its ancestors are views of the instances of the class.
New instances fit the class, and writes, through whatever class, keep them so.  Of two
views the one sees what is written through the other exactly where both find one
declaration.  A store that holds the instance reads and writes it through its exact class,
reads it declared through an ancestor, and hands out copies that read as it does.  Where a
declared read fails, the fault is the first whose premises hold. -/
theorem views_agree (tag : Nat) (decls : List ClassDecl) :
    let table := (ClassTable.empty tag).attemptAll decls
    (∀ cls, table.find? cls.id = some cls → ∃ chain, table.ancestors cls.id = .ok chain ∧
      cls ∈ chain ∧ (∀ domain, Fits table (.ofClass cls domain) cls) ∧
      ∀ inst, Fits table inst cls →
        (∀ view field value changed, inst.write view field value = .ok changed →
          Fits table changed cls) ∧
        inst.Viewed table chain ∧
        ∀ store id, Store.find? store id = some inst → store.Shows table id inst cls chain) ∧
    ∀ store id, (∀ inst cls, Store.find? store id = some inst →
        table.find? inst.cls = some cls → Fits table inst cls) →
      ∀ declaring field failure, store.readDeclared table id declaring field = .error failure ↔
        ∃ cause, store.RefusesDeclared table id declaring field cause ∧
          failure = .fault cause := by
  intro table
  obtain ⟨held, holds⟩ : ∃ held, table.Holds held :=
    ClassTable.exists_holds_attemptAll (ClassTable.holds_empty tag) decls
  refine ⟨?_, fun store id fitting => Store.readDeclared_eq_error_iff holds fitting⟩
  intro cls found
  obtain ⟨chain, chained⟩ := holds.exists_chain found
  refine ⟨chain, chained.ancestors_eq holds found, chained.head_mem, fits_ofClass found, ?_⟩
  intro inst fits
  exact ⟨fun _ _ _ _ run => fits.write run, fits.viewed holds chained,
    fun _ _ live => Store.shows_of_find? holds chained live fits⟩

/-- A page with a mark, and a sheet, which has a mark of its own beside that of the page. -/
def pageDecl : ClassDecl := { name := "Page", fields := [⟨"mark", .int 1⟩] }

def sheetDecl : ClassDecl :=
  { name := "Sheet", parent := some "Page", fields := [⟨"mark", .int 2⟩] }

def page : Class := .ofDecl ⟨1, 0⟩ none pageDecl

def sheet : Class := .ofDecl ⟨1, 1⟩ (some page) sheetDecl

/-- The mark of the page is written and read, that of the sheet stays. -/
theorem sheet_views :
    ∃ changed, (Instance.ofClass sheet .managed).write page "mark" (.int 7) = .ok changed ∧
      changed.read page "mark" = .ok (.int 7) ∧ changed.read sheet "mark" = .ok (.int 2) := by
  obtain ⟨chain, isChain, isHead, fits, views⟩ :=
    (views_agree 1 [pageDecl, sheetDecl]).1 sheet rfl
  obtain rfl : [sheet, page] = chain := Except.ok.inj isChain
  have above : page ∈ [sheet, page] := List.mem_cons_of_mem _ (List.mem_singleton_self _)
  obtain ⟨_, viewed, _⟩ := views _ (fits .managed)
  have located : ClassTable.Locates ((ClassTable.empty 1).attemptAll [pageDecl, sheetDecl]) page
      "mark" page := ⟨[page], rfl, rfl⟩
  obtain ⟨changed, run⟩ := (viewed.write_iff page above "mark" (.int 7)).mpr ⟨page, located⟩
  refine ⟨changed, run, viewed.same page above page above _ _ _ page run located located, ?_⟩
  refine (viewed.apart page above sheet isHead _ "mark" _ _ run ?_).trans rfl
  rintro ⟨_, owner, fromPage, fromSheet⟩
  obtain rfl := located.unique fromPage
  obtain ⟨chain, isSheet, declared⟩ := fromSheet
  cases isSheet
  cases declared

end Lineage
