import Lineage.Proofs.Session.Evolution

/-!
# Instances of a session

Stores are shared by the tables of a session, which may go on growing.  All the same every
instance has a class of exactly one table, the one whose tag its class carries, and fits
it (`Owns`).  It was allocated of this class, which was reported, and keeps it with its
domain and the number of its slots until it is released (`typed_until_release`).  The
step is `Change.origin`: an instance that a command leaves behind was there before, or the
command allocated it of a class that it found.
-/

set_option autoImplicit false

namespace Lineage.Session

/-! ## Tags -/

/-- The tag of a table is its handle. -/
def Tagged (session : Session) : Prop :=
  ∀ handle state classes, held session.tables handle = .ok state →
    state.classes? = some classes → classes.tag = handle

theorem tagged_empty : empty.Tagged := by
  intro handle state classes there
  obtain ⟨index, rfl, stored⟩ := (held_eq_ok_iff _ _ _).mp there
  cases stored

section Tables
variable {session after : Session} (tagged : session.Tagged)
include tagged

theorem Tagged.tag_eq {handle : Handle} {classes : ClassTable}
    (isTable : session.classes handle = .ok classes) : classes.tag = handle := by
  obtain ⟨state, there, isState⟩ := (session.classes_eq_ok_iff _ _).mp isTable
  exact tagged handle state classes there isState

theorem Tagged.keeps (same : after.tables = session.tables) : after.Tagged := by
  unfold Tagged
  rw [same]
  exact tagged

theorem Tagged.push {state : TableState}
    (own : ∀ classes, state.classes? = some classes → classes.tag = session.tables.size + 1) :
    Tagged { session with tables := session.tables.push state } := by
  intro handle other classes there isOther
  rcases held_push_cases there with older | ⟨rfl, rfl⟩
  · exact tagged handle other classes older isOther
  · exact own classes isOther

theorem Tagged.rebind {table : Handle} {classes changed : ClassTable}
    (isOpen : held session.tables table = .ok (.opened classes)) (grows : classes.Grows changed)
    {state : TableState} (isChanged : state.classes? = some changed) :
    Tagged { session with tables := Session.rebind session.tables table state } := by
  intro handle other known there isOther
  rw [held_rebind isOpen] at there
  split at there
  · rename_i here
    subst here
    cases there
    rw [isChanged] at isOther
    cases isOther
    rw [grows.tag]
    exact tagged handle _ classes isOpen rfl
  · exact tagged handle other known there isOther

theorem Tagged.progress (sound : session.Sound) {home : Option Handle} {events : List Event}
    (progress : session.Progress home after events) : after.Tagged := by
  cases progress with
  | other rest => exact tagged.keeps rest.tables
  | opens =>
      refine tagged.push ?_
      rintro _ ⟨⟩
      rfl
  | loads run events =>
      refine tagged.push ?_
      rintro _ ⟨⟩
      exact Hierarchy.tag_of_build run
  | fails events =>
      refine tagged.push ?_
      rintro _ ⟨⟩
  | defines isOpen run => exact tagged.rebind isOpen (ClassTable.grows_define run) rfl
  | closes isOpen run =>
      obtain ⟨decls, holds⟩ := sound _ _ isOpen
      obtain ⟨rfl, _⟩ := Hierarchy.flat_of_ofTable holds run
      exact tagged.rebind isOpen (.refl _) rfl
  | opensStore => exact tagged
  | acts isTable isStore course rest => exact tagged.keeps rest.tables

theorem Tagged.change (sound : session.Sound) {command : Command} {events : List Event}
    (change : session.Change command after events) : after.Tagged := by
  cases change with
  | goesOn noRelease progress => exact tagged.progress sound progress
  | releases isRelease isStore rest => exact tagged.keeps rest.tables
  | misses isRelease noStore => exact tagged

end Tables

theorem tagged_after (commands : List Command) : (empty.after commands).Tagged := by
  induction commands using List.reverseRecOn with
  | nil => exact tagged_empty
  | append_singleton commands command ih =>
      have sound := (sound_empty.evolves_after commands).sound
      rw [after_append]
      exact ih.change sound (sound.change_perform command)

/-! ## Where instances come from -/

/-- An allocation was reported, of a class of some table of the session that the instance
fits. -/
structure Bears (session : Session) (events : List Event) (id : InstanceNo) (inst : Instance)
    (table : Handle) (classes : ClassTable) (cls : Class) : Prop where
  isTable : session.classes table = .ok classes
  fits : Fits classes inst cls
  reported : .allocated id cls.name inst.domain ∈ events

theorem Bears.sameShape {session : Session} {events : List Event} {id : InstanceNo}
    {old inst : Instance} {table : Handle} {classes : ClassTable} {cls : Class}
    (bears : session.Bears events id old table classes cls) (same : old.SameShape inst) :
    session.Bears events id inst table classes cls where
  isTable := bears.isTable
  fits := bears.fits.sameShape same
  reported := by
    rw [same.domain]
    exact bears.reported

/-- The number stands for an instance of this shape in the store of that handle. -/
def Lives (session : Session) (handle : Handle) (id : InstanceNo) (inst : Instance) : Prop :=
  ∃ store old, held session.stores handle = .ok store ∧ store.find? id = some old ∧
    old.SameShape inst

section Origin
variable {session after : Session} {handle : Handle} {id : InstanceNo} {inst : Instance}
  {store now : Store}

theorem lives_of_find? (isStore : held session.stores handle = .ok store)
    (live : store.find? id = some inst) : session.Lives handle id inst :=
  ⟨store, inst, isStore, live, .refl inst⟩

theorem Progress.origin (sound : session.Sound) {home : Option Handle} {events : List Event}
    (progress : session.Progress home after events)
    (isStore : held after.stores handle = .ok now) (live : now.find? id = some inst) :
    session.Lives handle id inst ∨
      (∀ store, held session.stores handle = .ok store → store.find? id = none) ∧
        ∃ table classes cls, session.Bears events id inst table classes cls := by
  cases progress with
  | other rest => exact .inl (lives_of_find? (rest.stores ▸ isStore) live)
  | opensStore =>
      rcases held_push_cases isStore with older | ⟨_, rfl⟩
      · exact .inl (lives_of_find? older live)
      · simp at live
  | @acts table home classes instances changed events _ isTable isHome course rest =>
      rw [rest.stores, held_rebind isHome] at isStore
      split at isStore
      · rename_i here
        subst here
        cases isStore
        obtain ⟨decls, holds⟩ := sound.exists_holds isTable
        rcases course.origin holds live with
          ⟨old, wasLive, same⟩ | ⟨wasDead, cls, fits, reported⟩
        · exact .inl ⟨instances, old, isHome, wasLive, same⟩
        · refine .inr ⟨?_, table, classes, cls, isTable, fits, reported⟩
          intro store isStore
          rw [isHome] at isStore
          cases isStore
          exact wasDead
      · exact .inl (lives_of_find? isStore live)
  | _ => exact .inl (lives_of_find? isStore live)

/-- An instance that a command leaves in a store was there before, or its number was free
there and the command allocated it. -/
theorem Change.origin (sound : session.Sound) {command : Command} {events : List Event}
    (change : session.Change command after events)
    (isStore : held after.stores handle = .ok now) (live : now.find? id = some inst) :
    session.Lives handle id inst ∨
      (∀ store, held session.stores handle = .ok store → store.find? id = none) ∧
        ∃ table classes cls, session.Bears events id inst table classes cls := by
  cases change with
  | goesOn noRelease progress => exact progress.origin sound isStore live
  | @releases home released instances _ isRelease isHome rest =>
      rw [rest.stores, held_rebind isHome] at isStore
      split at isStore
      · rename_i here
        subst here
        cases isStore
        exact .inl (lives_of_find? isHome (Store.find?_of_released live))
      · exact .inl (lives_of_find? isStore live)
  | misses isRelease noStore => exact .inl (lives_of_find? isStore live)

end Origin

/-- Every instance was allocated by one of the commands, under a number that was not given
out before. -/
theorem exists_birth (commands : List Command) {handle : Handle} {store : Store}
    {id : InstanceNo} {inst : Instance}
    (isStore : held (empty.after commands).stores handle = .ok store)
    (live : store.find? id = some inst) :
    ∃ earlier birth since table classes cls, commands = earlier ++ birth :: since ∧
      (∀ past, held (empty.after earlier).stores handle = .ok past → past.next ≤ id) ∧
      (empty.after earlier).Bears ((empty.after earlier).perform birth).events id inst table
        classes cls ∧
      (empty.after (earlier ++ [birth])).Lives handle id inst := by
  induction commands using List.reverseRecOn generalizing store inst with
  | nil =>
      obtain ⟨index, rfl, stored⟩ := (held_eq_ok_iff _ _ _).mp isStore
      cases stored
  | append_singleton commands command ih =>
      have sound := (sound_empty.evolves_after commands).sound
      have isNow := isStore
      rw [after_append] at isNow
      rcases (sound.change_perform command).origin sound isNow live with
        ⟨before, old, isBefore, wasLive, same⟩ | ⟨free, table, classes, cls, bears⟩
      · obtain ⟨earlier, birth, since, table, classes, cls, rfl, isFresh, bears, newborn⟩ :=
          ih isBefore wasLive
        obtain ⟨first, young, isFirst, lived, shape⟩ := newborn
        exact ⟨earlier, birth, since ++ [command], table, classes, cls, by simp, isFresh,
          bears.sameShape same, first, young, isFirst, lived, shape.trans same⟩
      · refine ⟨commands, command, [], table, classes, cls, rfl, ?_, bears,
          lives_of_find? isStore live⟩
        intro past isPast
        -- A number that was given out and is free stays free.
        by_contra wasGiven
        obtain ⟨later, isLater, evolves⟩ :=
          (sound.evolves_perform command).stores handle past isPast
        rw [show held ((empty.after commands).perform command).session.stores handle =
          .ok store from isNow] at isLater
        cases isLater
        rw [evolves.ended id (Nat.lt_of_not_le wasGiven) (.inl (free past isPast))] at live
        cases live

/-! ## Typing -/

/-- The table of that tag, and no other table of the session, has the class of the
instance, and the instance fits it. -/
structure Owns (session : Session) (inst : Instance) (classes : ClassTable) (cls : Class) :
    Prop where
  isTable : session.classes inst.cls.table = .ok classes
  fits : Fits classes inst cls
  only : ∀ handle other, session.classes handle = .ok other → other.owns inst.cls = true →
    handle = inst.cls.table

/-- One of the commands allocated the instance of its class, under a number that was not
given out before, and ever since the number has stood for an instance of this shape. -/
def LivesSinceBirth (commands : List Command) (handle : Handle) (id : InstanceNo)
    (inst : Instance) (cls : Class) : Prop :=
  ∃ earlier birth since classes, commands = earlier ++ birth :: since ∧
    (∀ past, held (empty.after earlier).stores handle = .ok past → past.next ≤ id) ∧
    (empty.after earlier).Bears ((empty.after earlier).perform birth).events id inst
      inst.cls.table classes cls ∧
    ∀ between rest, since = between ++ rest →
      (empty.after (earlier ++ birth :: between)).Lives handle id inst

theorem Tagged.owns {session : Session} (tagged : session.Tagged) {inst : Instance}
    {table : Handle} {classes : ClassTable} {cls : Class}
    (isTable : session.classes table = .ok classes) (fits : Fits classes inst cls) :
    session.Owns inst classes cls ∧ table = inst.cls.table := by
  have own {handle : Handle} {other : ClassTable} {found : Class}
      (isOther : session.classes handle = .ok other)
      (isFound : other.find? inst.cls = some found) : handle = inst.cls.table := by
    rw [((other.find?_eq_some_iff _ _).mp isFound).1, tagged.tag_eq isOther]
  have here := own isTable fits.found
  refine ⟨⟨here ▸ isTable, fits, ?_⟩, here⟩
  intro handle other isOther owned
  obtain ⟨found, isFound⟩ := Option.isSome_iff_exists.mp owned
  exact own isOther isFound

section Typing
variable (commands : List Command) {handle : Handle} {store : Store} {id : InstanceNo}
  {inst : Instance} (isStore : held (empty.after commands).stores handle = .ok store)
  (live : store.find? id = some inst)
include isStore live

/-- A number that stands for an instance did so at every time since it was given out. -/
theorem lives_between {earlier between rest : List Command}
    (split : commands = earlier ++ between ++ rest)
    (newborn : (empty.after earlier).Lives handle id inst) :
    (empty.after (earlier ++ between)).Lives handle id inst := by
  obtain ⟨first, young, isFirst, lived, _⟩ := newborn
  have sound := (sound_empty.evolves_after earlier).sound
  obtain ⟨middle, isMiddle, toMiddle⟩ := (sound.evolves_after between).stores handle first isFirst
  rw [← after_append] at isMiddle
  have soundMiddle := (sound_empty.evolves_after (earlier ++ between)).sound
  obtain ⟨last, isLast, fromMiddle⟩ :=
    (soundMiddle.evolves_after rest).stores handle middle isMiddle
  rw [← after_append, ← split, isStore] at isLast
  cases isLast
  have given := Nat.lt_of_lt_of_le (Store.bounds_of_find? lived).2 toMiddle.grown
  obtain ⟨old, wasLive, same⟩ := fromMiddle.exists_before given live
  exact ⟨middle, old, isMiddle, wasLive, same⟩

theorem exists_owns :
    ∃ classes cls, (empty.after commands).Owns inst classes cls ∧
      LivesSinceBirth commands handle id inst cls := by
  obtain ⟨earlier, birth, since, table, first, cls, rfl, isFresh, bears, newborn⟩ :=
    exists_birth commands isStore live
  obtain ⟨_, rfl⟩ := (tagged_after earlier).owns bears.isTable bears.fits
  have sound := (sound_empty.evolves_after earlier).sound
  obtain ⟨classes, isTable, grows⟩ :=
    (sound.evolves_after (birth :: since)).classes _ first bears.isTable
  rw [← after_append] at isTable
  have owns := ((tagged_after _).owns isTable (bears.fits.grows grows)).1
  refine ⟨classes, cls, owns, earlier, birth, since, first, rfl, isFresh, bears, ?_⟩
  rintro between rest rfl
  have split : earlier ++ birth :: (between ++ rest) = earlier ++ [birth] ++ between ++ rest := by
    simp
  rw [List.append_cons]
  exact lives_between _ isStore live split newborn

end Typing

theorem Owns.exists_accesses {session : Session} (sound : session.Sound) {store : Store}
    {id : InstanceNo} {inst : Instance} {classes : ClassTable} {cls : Class}
    (owns : session.Owns inst classes cls) (live : store.find? id = some inst) :
    ∃ chain, classes.ancestors cls.id = .ok chain ∧ store.Accesses classes id cls chain := by
  obtain ⟨decls, holds⟩ := sound.exists_holds owns.isTable
  obtain ⟨chain, chained⟩ := holds.exists_chain owns.fits.found
  exact ⟨chain, chained.ancestors_eq holds (owns.fits.own holds),
    Store.accesses_of_fits holds chained live owns.fits⟩

/-- Every instance of every store has a class of exactly one table and the slots of that
class, so its fields are reached where they are declared.  It was allocated of that class
and has kept its class, its domain and the number of its slots ever since.  This is so
between commands and also in the middle of one, for a call only goes through writes and
allocations of one table. -/
theorem typed_until_release (commands : List Command) :
    let session := empty.after commands
    (∀ handle store id inst, held session.stores handle = .ok store →
      store.find? id = some inst → ∃ classes cls chain, session.Owns inst classes cls ∧
        classes.ancestors cls.id = .ok chain ∧ store.Accesses classes id cls chain ∧
        LivesSinceBirth commands handle id inst cls) ∧
    (∀ table classes handle store events reached, session.classes table = .ok classes →
      held session.stores handle = .ok store → store.Course classes events reached →
      (∀ id inst, store.find? id = some inst →
        ∃ now, reached.find? id = some now ∧ inst.SameShape now) ∧
      ∀ id inst, reached.find? id = some inst → ∃ owner cls chain, session.Owns inst owner cls ∧
        owner.ancestors cls.id = .ok chain ∧ reached.Accesses owner id cls chain) ∧
    ∀ table hierarchy, session.hierarchy table = .ok hierarchy →
      ∀ options args, (∀ reference signature,
        (Dispatcher.invoke ⟨hierarchy, options⟩ reference signature args).Through
          hierarchy.classes) ∧
      ∀ target method, (Dispatcher.send ⟨hierarchy, options⟩ target method args).Through
        hierarchy.classes := by
  intro session
  have sound : session.Sound := (sound_empty.evolves_after commands).sound
  refine ⟨?_, ?_, ?_⟩
  · intro handle store id inst isStore live
    obtain ⟨classes, cls, owns, lives⟩ := exists_owns commands isStore live
    obtain ⟨chain, isChain, accesses⟩ := owns.exists_accesses sound live
    exact ⟨classes, cls, chain, owns, isChain, accesses, lives⟩
  · intro table classes handle store events reached isTable isStore course
    have lasts := (Store.steady_lasts classes).of_course course
    refine ⟨fun id inst live => lasts.kept id inst live not_false, ?_⟩
    intro id inst live
    have owned : ∃ owner cls, session.Owns inst owner cls := by
      obtain ⟨decls, holds⟩ := sound.exists_holds isTable
      rcases course.origin holds live with ⟨old, wasLive, same⟩ | ⟨_, cls, fits, _⟩
      · obtain ⟨owner, cls, owns, _⟩ := exists_owns commands isStore wasLive
        exact ⟨owner, cls,
          ((tagged_after commands).owns owns.isTable (owns.fits.sameShape same)).1⟩
      · exact ⟨classes, cls, ((tagged_after commands).owns isTable fits).1⟩
    obtain ⟨owner, cls, owns⟩ := owned
    obtain ⟨chain, isChain, accesses⟩ := owns.exists_accesses sound live
    exact ⟨owner, cls, chain, owns, isChain, accesses⟩
  · intro table hierarchy isClosed options args
    obtain ⟨decls, flat⟩ := sound table _ ((session.hierarchy_eq_ok_iff _ _).mp isClosed)
    let dispatcher : Dispatcher := ⟨hierarchy, options⟩
    have flatHere : dispatcher.hierarchy.Flat decls := flat
    exact ⟨fun reference signature => Dispatcher.through_invoke flatHere reference signature args,
      fun target method => Dispatcher.through_send flatHere target method args⟩

/-- A table that goes on growing shares a store with a closed one, and a call that fails
midway leaves a leaf behind. -/
theorem leaf_typed :
    let commands : List Command :=
      [.build sampleDecls, .openTable, .define 2 { name := "Tag", fields := [⟨"of", .nil⟩] },
        .openStore, .allocateNamed 1 2 "Tag" .unmanaged,
        .define 2 { name := "Badge", parent := some "Tag", fields := [⟨"of", .int 0⟩] },
        .attach 1 1 {}, .dispatcherAllocate 1 "Node" .managed, .send 1 2 "grow" [],
        .write 1 2 1 "of" (.object 3)]
    let session := empty.after commands
    let leaf : Instance := ⟨⟨1, 1⟩, .managed, [.object 2, .str "node", .str "linked"]⟩
    ∃ store, held session.stores 1 = .ok store ∧ store.find? 3 = some leaf ∧
      (∃ classes cls chain, session.Owns leaf classes cls ∧
        classes.ancestors cls.id = .ok chain ∧ store.Accesses classes 3 cls chain ∧
        LivesSinceBirth commands 1 3 leaf cls) ∧
      let again := Dispatcher.send ⟨sampleHierarchy, {}⟩ 2 "grow" [] store
      ∃ now, again.store.find? 3 = some now ∧ leaf.SameShape now := by
  intro commands session leaf
  let grown : Store :=
    ⟨#[some ⟨⟨2, 0⟩, .unmanaged, [.object 3]⟩,
      some ⟨⟨1, 0⟩, .managed, [.object 3, .str "node"]⟩, some leaf]⟩
  have isStore : held session.stores 1 = .ok grown := by decide +kernel
  -- the table is looked up where it was loaded, and the rest of the commands keep it
  have loaded : held (empty.after [.build sampleDecls]).tables 1 = .ok (.closed sampleHierarchy) :=
    rfl
  have sound : (empty.after [.build sampleDecls]).Sound := (sound_empty.evolves_after _).sound
  have isSession : session = (empty.after [.build sampleDecls]).after commands.tail :=
    after_append empty [.build sampleDecls] commands.tail
  have isClosed : held session.tables 1 = .ok (.closed sampleHierarchy) := by
    rw [isSession]
    exact (sound.evolves_after commands.tail).tables 1 sampleHierarchy loaded
  have isHierarchy := (session.hierarchy_eq_ok_iff 1 sampleHierarchy).mpr isClosed
  have isTable : session.classes 1 = .ok sampleHierarchy.classes :=
    (session.classes_eq_ok_iff 1 _).mpr ⟨_, isClosed, rfl⟩
  obtain ⟨typed, inCalls, calls⟩ := typed_until_release commands
  have course := (calls 1 sampleHierarchy isHierarchy {} []).2 2 "grow" grown
  refine ⟨grown, isStore, rfl, typed 1 grown 3 leaf isStore rfl, ?_⟩
  exact (inCalls 1 _ 1 grown _ _ isTable isStore course).1 3 leaf rfl

end Lineage.Session
