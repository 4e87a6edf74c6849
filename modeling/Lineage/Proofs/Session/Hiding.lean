import Lineage.Proofs.Session.Typing
import Lineage.Proofs.Table.Representation

/-!
# Hidden slots

A class that declares a field anew gives it one more slot and hides the slot that the field
had so far.  A write goes through the exact class of an instance, which finds a field in the
last slot of its name, so no write of a host or of a method reaches a hidden slot, methods
that were declared above the hiding class among them.  `hidden_slots_keep_initial` says
that hidden slots hold what was declared for them and that an ancestor's view which reads
one reads that for ever.
-/

set_option autoImplicit false

namespace Lineage

/-- The slot has the name of a later one. -/
def Class.Hides (cls : Class) (position : Nat) : Prop :=
  ∃ slot later other, cls.slots[position]? = some slot ∧ position < later ∧
    cls.slots[later]? = some other ∧ other.name = slot.name

/-- Every slot that the class hides holds what was declared for it. -/
def Instance.Preserves (inst : Instance) (cls : Class) : Prop :=
  ∀ position slot, cls.slots[position]? = some slot → cls.Hides position →
    inst.slots[position]? = some slot.initial.value

theorem Instance.preserves_ofClass (cls : Class) (domain : Domain) :
    (Instance.ofClass cls domain).Preserves cls := by
  intro position slot stands _
  rw [Instance.ofClass, List.getElem?_map, stands]
  rfl

theorem Instance.Preserves.set {inst : Instance} {cls : Class} (preserves : inst.Preserves cls)
    {written : Nat} (isVisible : ¬ cls.Hides written) (value : Value) :
    Preserves { inst with slots := inst.slots.set written value } cls := by
  intro position slot stands hides
  have isOther : written ≠ position := fun same => isVisible (same ▸ hides)
  rw [List.getElem?_set_ne isOther]
  exact preserves position slot stands hides

namespace ClassTable

variable {table : ClassTable} {decls : List ClassDecl} {cls : Class} {chain : List Class}

theorem Chain.grows {after : ClassTable} (chained : table.Chain cls chain)
    (grows : table.Grows after) : after.Chain cls chain := by
  induction chained with
  | root isRoot => exact .root isRoot
  | under inherits found above ih => exact .under inherits (grows.find? _ _ found) ih

section Chained
variable (holds : table.Holds decls) (chained : table.Chain cls chain)
  (found : table.find? cls.id = some cls) {field : String} {position : Nat}
include holds chained found

/-- The slot in which a class finds a field is not hidden in this class. -/
theorem Chain.not_hides_of_slotOf? (placed : cls.slotOf? field = some position) :
    ¬ cls.Hides position := by
  rintro ⟨slot, later, other, stands, isLater, standsLater, sameName⟩
  rw [Class.slotOf?, chained.indexed holds found field, lastIndex?_eq_some_iff] at placed
  obtain ⟨isNamed, isLast⟩ := placed
  have name : slot.name = field := by
    rw [List.getElem?_map, ← Class.slots, stands] at isNamed
    exact Option.some.inj isNamed
  refine isLast later isLater ?_
  rw [List.getElem?_map, ← Class.slots, standsLater]
  exact congrArg some (sameName.trans name)

/-- A slot in which an ancestor finds a field is the place of the nearest declaration that
the ancestor sees. -/
theorem Chain.exists_declaration_above {view : Class} {viewChain : List Class}
    (inChain : view ∈ chain) (viewChained : table.Chain view viewChain)
    (placed : view.slotOf? field = some position) :
    ∃ owner initial, viewChain.find? (·.declaresField field) = some owner ∧
      ⟨field, initial⟩ ∈ owner.fields ∧
      cls.slots[position]? = some ⟨field, owner.id, initial⟩ := by
  have viewFound := chained.find?_of_mem holds found inChain
  cases declared : viewChain.find? (·.declaresField field) with
  | none =>
      rw [viewChained.slotOf?_eq_none holds viewFound declared] at placed
      cases placed
  | some owner =>
      obtain ⟨slot, initial, isPlaced, inFields, stands⟩ :=
        viewChained.exists_declaration holds viewFound declared
      rw [placed] at isPlaced
      cases isPlaced
      have inView := (List.getElem?_eq_some_iff.mp stands).1
      obtain ⟨rest, whole⟩ := chained.slots_prefix holds found inChain
      refine ⟨owner, initial, rfl, inFields, ?_⟩
      rw [← whole, List.getElem?_append_left inView, stands]

end Chained

end ClassTable

theorem Store.readDeclared_of_preserves {store : Store} {classes : ClassTable}
    {decls : List ClassDecl} {id : InstanceNo} {inst : Instance} {cls view : Class}
    {chain : List Class} (holds : classes.Holds decls) (chained : classes.Chain cls chain)
    (live : store.find? id = some inst) (fits : Fits classes inst cls)
    (preserves : inst.Preserves cls) (inChain : view ∈ chain) {field : String} {position : Nat}
    (placed : view.slotOf? field = some position) {slot : Slot}
    (stands : cls.slots[position]? = some slot) (hides : cls.Hides position) :
    store.readDeclared classes id view.name field = .ok slot.initial.value := by
  have viewFound := chained.find?_of_mem holds (fits.own holds) inChain
  rw [readDeclared_of_find? holds chained live fits viewFound,
    if_pos (List.mem_map_of_mem inChain)]
  have content := preserves position slot stands hides
  have inside := (List.getElem?_eq_some_iff.mp content).1
  have sameTable : view.id.table = inst.cls.table := by
    rw [((classes.find?_eq_some_iff _ _).mp viewFound).1,
      ((classes.find?_eq_some_iff _ _).mp fits.found).1]
  have isPosition := (inst.position_eq_ok_iff view field position).mpr ⟨sameTable, placed, inside⟩
  simp only [Instance.read, isPosition, content, bind, Except.bind, pure, Except.pure]

namespace Session

/-- The instance has a class of one table, and the slots that this class hides are as they
were declared. -/
def Guards (session : Session) (inst : Instance) : Prop :=
  ∃ classes cls, session.Owns inst classes cls ∧ inst.Preserves cls

def Shelters (session : Session) (store : Store) : Prop :=
  ∀ id inst, store.find? id = some inst → session.Guards inst

variable {session after : Session}

/-- Tables only grow, so an instance is guarded in every later session. -/
theorem Shelters.evolves {gone : Handle → InstanceNo → Prop} {store : Store}
    (shelters : session.Shelters store) (tagged : after.Tagged)
    (evolves : session.Evolves gone after) : after.Shelters store := by
  intro id inst live
  obtain ⟨classes, cls, owns, preserves⟩ := shelters id inst live
  obtain ⟨now, isTable, grows⟩ := evolves.classes _ classes owns.isTable
  exact ⟨now, cls, (tagged.owns isTable (owns.fits.grows grows)).1, preserves⟩

section Steps
variable (sound : session.Sound) (tagged : session.Tagged)
include sound

/-- A write through any table goes to a slot that the exact class shows. -/
theorem Sound.shelters_write {store changed : Store} (shelters : session.Shelters store)
    {table : Handle} {classes : ClassTable} (isTable : session.classes table = .ok classes)
    {id : InstanceNo} {field : String} {value : Value}
    (run : store.write classes id field value = .ok changed) : session.Shelters changed := by
  obtain ⟨inst, view, position, live, isView, isPosition, rfl⟩ := Store.write_eq_ok run
  obtain ⟨owner, cls, owns, preserves⟩ := shelters id inst live
  obtain ⟨decls, holds⟩ := sound.exists_holds owns.isTable
  obtain ⟨chain, chained⟩ := holds.exists_chain owns.fits.found
  have viewFound := ClassTable.find?_of_get isView
  -- no other table than the instance's own gives a view of it
  have isOwn := owns.only table classes isTable (Option.isSome_iff_exists.mpr ⟨view, viewFound⟩)
  have sameTable : classes = owner := by
    rw [isOwn, owns.isTable] at isTable
    exact (Except.ok.inj isTable).symm
  have sameClass : view = cls := by
    rw [sameTable, owns.fits.found] at viewFound
    exact (Option.some.inj viewFound).symm
  subst sameClass
  have placed := ((inst.position_eq_ok_iff view field position).mp isPosition).2.1
  have isVisible := chained.not_hides_of_slotOf? holds (owns.fits.own holds) placed
  obtain ⟨positive, given⟩ := Store.bounds_of_find? live
  intro other now isLive
  rw [Store.find?_put store id other _ positive given] at isLive
  split at isLive
  · cases isLive
    exact ⟨owner, view, ⟨owns.isTable, owns.fits.set position value, owns.only⟩,
      preserves.set isVisible value⟩
  · exact shelters other now isLive

include tagged

theorem Sound.shelters_allocate {store : Store} (shelters : session.Shelters store)
    {table : Handle} {classes : ClassTable} (isTable : session.classes table = .ok classes)
    {name : String} {cls : Class} (known : classes.lookup name = .ok cls) (domain : Domain) :
    session.Shelters (store.allocate cls domain) := by
  obtain ⟨decls, holds⟩ := sound.exists_holds isTable
  intro id inst live
  rw [Store.find?_allocate] at live
  split at live
  · cases live
    have fits := fits_ofClass (holds.find?_of_lookup known) domain
    exact ⟨classes, cls, (tagged.owns isTable fits).1, Instance.preserves_ofClass cls domain⟩
  · exact shelters id inst live

theorem Sound.shelters_course {start reached : Store} {events : List Event}
    (shelters : session.Shelters start) {table : Handle} {classes : ClassTable}
    (isTable : session.classes table = .ok classes)
    (course : start.Course classes events reached) : session.Shelters reached := by
  induction course with
  | stay => exact shelters
  | write before run ih => exact sound.shelters_write ih isTable run
  | allocate before known domain ih => exact sound.shelters_allocate tagged ih isTable known domain
  | report before level receiver cls method owner depth ih => exact ih

section Commands
variable {handle : Handle} {store : Store} (isStore : held after.stores handle = .ok store)
  (shelters : ∀ handle store, held session.stores handle = .ok store → session.Shelters store)
include isStore shelters

theorem Sound.shelters_progress {home : Option Handle} {events : List Event}
    (progress : session.Progress home after events) : session.Shelters store := by
  cases progress with
  | other rest => exact shelters handle store (rest.stores ▸ isStore)
  | opensStore =>
      rcases held_push_cases isStore with older | ⟨_, rfl⟩
      · exact shelters handle store older
      · intro id inst live
        simp at live
  | acts isTable isHome course rest =>
      rw [rest.stores, held_rebind isHome] at isStore
      split at isStore
      · cases isStore
        exact sound.shelters_course tagged (shelters _ _ isHome) isTable course
      · exact shelters handle store isStore
  | _ => exact shelters handle store isStore

/-- A command changes no hidden slot in any store. -/
theorem Sound.shelters_change {command : Command} {events : List Event}
    (change : session.Change command after events) : session.Shelters store := by
  cases change with
  | goesOn noRelease progress => exact sound.shelters_progress tagged isStore shelters progress
  | releases isRelease isHome rest =>
      rw [rest.stores, held_rebind isHome] at isStore
      split at isStore
      · cases isStore
        intro id inst live
        exact shelters _ _ isHome id inst (Store.find?_of_released live)
      · exact shelters handle store isStore
  | misses isRelease noStore => exact shelters handle store isStore

end Commands

end Steps

theorem shelters_after (commands : List Command) {handle : Handle} {store : Store}
    (isStore : held (empty.after commands).stores handle = .ok store) :
    (empty.after commands).Shelters store := by
  induction commands using List.reverseRecOn generalizing handle store with
  | nil =>
      obtain ⟨index, rfl, stored⟩ := (held_eq_ok_iff _ _ _).mp isStore
      cases stored
  | append_singleton commands command ih =>
      have sound := (sound_empty.evolves_after commands).sound
      have later := tagged_after (commands ++ [command])
      rw [after_append] at isStore later ⊢
      have before := sound.shelters_change (tagged_after commands) isStore (fun _ _ => ih)
        (sound.change_perform command)
      exact before.evolves later (sound.evolves_perform command)

section Later
variable (commands more : List Command) {handle : Handle} {store now : Store} {id : InstanceNo}
  {inst : Instance} (isStore : held (empty.after commands).stores handle = .ok store)
  (live : store.find? id = some inst)
include isStore live

/-- While the instance lives, a hidden slot reads as declared from above. -/
theorem readDeclared_hidden {classes : ClassTable} {cls view : Class}
    (owns : (empty.after commands).Owns inst classes cls) {chain : List Class}
    (chained : classes.Chain cls chain) (inChain : view ∈ chain) {field : String}
    {position : Nat} (placed : view.slotOf? field = some position) {slot : Slot}
    (stands : cls.slots[position]? = some slot) (hides : cls.Hides position)
    (isNow : held (empty.after (commands ++ more)).stores handle = .ok now)
    (lives : now.contains id = true) :
    (empty.after (commands ++ more)).ask
        (.readDeclared handle inst.cls.table id view.name field) =
      .ok (.value slot.initial.value) := by
  have evolves := (sound_empty.evolves_after commands).sound.evolves_after more
  rw [← after_append] at evolves
  obtain ⟨_, isSame, toNow⟩ := evolves.stores handle store isStore
  rw [isNow] at isSame
  cases isSame
  obtain ⟨last, isLive⟩ := Option.isSome_iff_exists.mp lives
  obtain ⟨old, wasLive, shape⟩ := toNow.exists_before (Store.bounds_of_find? live).2 isLive
  rw [live] at wasLive
  cases wasLive
  obtain ⟨grown, isTable, grows⟩ := evolves.classes _ classes owns.isTable
  obtain ⟨decls, holds⟩ := evolves.sound.exists_holds isTable
  have fits : Fits grown last cls := (owns.fits.grows grows).sameShape shape
  obtain ⟨other, known, lastOwns, preserves⟩ := shelters_after _ isNow id last isLive
  have sameTable : other = grown := by
    have isOther := lastOwns.isTable
    rw [shape.cls, isTable] at isOther
    exact (Except.ok.inj isOther).symm
  subst sameTable
  have sameClass := Option.some.inj (fits.found.symm.trans lastOwns.fits.found)
  subst sameClass
  have answer := Store.readDeclared_of_preserves holds (chained.grows grows) isLive fits preserves
    inChain placed stands hides
  simp only [ask, isNow, isTable, answer, Reply.ofOutcome, bind, Except.bind, pure, Except.pure]

end Later

/-- A slot that the exact class of an instance hides holds what was declared for it, in every
state of every session.  An ancestor that finds a field in such a slot therefore reads what
the nearest class that it sees declares, as long as the instance lives.  This is so between
commands and also in the middle of one, for a call only goes through writes and allocations
of one table. -/
theorem hidden_slots_keep_initial (commands : List Command) :
    let session := empty.after commands
    (∀ handle store id inst, held session.stores handle = .ok store →
      store.find? id = some inst → ∃ classes cls chain, session.Owns inst classes cls ∧
        classes.ancestors cls.id = .ok chain ∧ inst.Preserves cls ∧
        ∀ view ∈ chain, ∀ field position, view.slotOf? field = some position →
          cls.Hides position → ∃ viewChain owner initial,
            classes.ancestors view.id = .ok viewChain ∧
            viewChain.find? (·.declaresField field) = some owner ∧
            ⟨field, initial⟩ ∈ owner.fields ∧
            ∀ more now, held (empty.after (commands ++ more)).stores handle = .ok now →
              now.contains id = true → (empty.after (commands ++ more)).ask
                  (.readDeclared handle inst.cls.table id view.name field) =
                .ok (.value initial.value)) ∧
    (∀ table classes handle store events reached, session.classes table = .ok classes →
      held session.stores handle = .ok store → store.Course classes events reached →
      ∀ id inst, reached.find? id = some inst → session.Guards inst) ∧
    ∀ table hierarchy, session.hierarchy table = .ok hierarchy →
      ∀ options args, (∀ reference signature,
        (Dispatcher.invoke ⟨hierarchy, options⟩ reference signature args).Through
          hierarchy.classes) ∧
      ∀ target method, (Dispatcher.send ⟨hierarchy, options⟩ target method args).Through
        hierarchy.classes := by
  intro session
  have sound : session.Sound := (sound_empty.evolves_after commands).sound
  refine ⟨?_, ?_, ?_⟩
  · intro handle store id inst isStore live
    obtain ⟨classes, cls, owns, preserves⟩ := shelters_after commands isStore id inst live
    obtain ⟨decls, holds⟩ := sound.exists_holds owns.isTable
    obtain ⟨chain, chained⟩ := holds.exists_chain owns.fits.found
    have own := owns.fits.own holds
    refine ⟨classes, cls, chain, owns, chained.ancestors_eq holds own, preserves, ?_⟩
    intro view inChain field position placed hides
    have viewFound := chained.find?_of_mem holds own inChain
    obtain ⟨viewChain, viewChained⟩ := holds.exists_chain viewFound
    obtain ⟨owner, initial, declared, inFields, stands⟩ :=
      chained.exists_declaration_above holds own inChain viewChained placed
    refine ⟨viewChain, owner, initial, viewChained.ancestors_eq holds viewFound, declared,
      inFields, ?_⟩
    intro more now isNow lives
    exact readDeclared_hidden commands more isStore live owns chained inChain placed stands hides
      isNow lives
  · intro table classes handle store events reached isTable isStore course
    exact sound.shelters_course (tagged_after commands) (shelters_after commands isStore) isTable
      course
  · intro table hierarchy isClosed options args
    obtain ⟨decls, flat⟩ := sound table _ ((session.hierarchy_eq_ok_iff _ _).mp isClosed)
    let dispatcher : Dispatcher := ⟨hierarchy, options⟩
    have flatHere : dispatcher.hierarchy.Flat decls := flat
    exact ⟨fun reference signature => Dispatcher.through_invoke flatHere reference signature args,
      fun target method => Dispatcher.through_send flatHere target method args⟩

/-- A box with a mark, and a lid, which has a mark of its own beside that of the box. -/
def boxDecls : List ClassDecl :=
  [{ name := "Box"
     fields := [⟨"mark", .int 1⟩]
     methods := [⟨"put", 1, .expr (.set .this "mark" (.arg 0))⟩] },
   { name := "Lid", parent := some "Box", fields := [⟨"mark", .int 2⟩] }]

def boxHierarchy : Hierarchy :=
  match Hierarchy.build 1 boxDecls with
  | .ok hierarchy => hierarchy
  | .error _ => ⟨.empty 1, #[]⟩

/-- The host and a method of the box write the mark of a lid. -/
theorem lid_keeps_mark_of_box :
    let before : List Command :=
      [.build boxDecls, .openStore, .attach 1 1 {}, .dispatcherAllocate 1 "Lid" .managed,
        .dispatcherWrite 1 1 "mark" (.int 5)]
    let later := empty.after (before ++ [.send 1 1 "put" [.int 7]])
    ∃ store, held later.stores 1 = .ok store ∧
      store.find? 1 = some ⟨⟨1, 1⟩, .managed, [.int 1, .int 7]⟩ ∧
      later.ask (.readDeclared 1 1 1 "Box" "mark") = .ok (.value (.int 1)) := by
  intro before later
  let lid : Instance := ⟨⟨1, 1⟩, .managed, [.int 1, .int 5]⟩
  obtain ⟨classes, cls, chain, owns, isChain, _, reads⟩ :=
    (hidden_slots_keep_initial before).1 1 _ 1 lid rfl rfl
  obtain rfl : boxHierarchy.classes = classes := Except.ok.inj owns.isTable
  have isLid : boxHierarchy.classes.find? ⟨1, 1⟩ = some cls := owns.fits.found
  cases isLid
  cases isChain
  obtain ⟨viewChain, owner, initial, isViewChain, declared, inFields, answers⟩ :=
    reads _ (List.mem_cons_of_mem _ (List.mem_singleton_self _)) "mark" 0 rfl
      ⟨_, 1, _, rfl, Nat.zero_lt_one, rfl, rfl⟩
  cases isViewChain
  cases declared
  cases List.mem_singleton.mp inFields
  exact ⟨_, rfl, rfl, answers [.send 1 1 "put" [.int 7]] _ rfl rfl⟩

end Session

end Lineage
