import Lineage.Proofs.Call.Course
import Lineage.Session.Command

/-!
# What one command changes

A command of the host does one of a few things to the tables and stores of a session
(`Change`): it adds a table or a store, it extends or closes an open table, it works on
one store through the classes of one table, or it releases an instance.  What else it does
takes nothing away (`Keeps`).  `Sound.change_perform` says so for every command, so facts
about whole sessions are shown one kind of change at a time.
-/

set_option autoImplicit false

namespace Lineage

/-! ## Handles -/

namespace Session

section Handles
variable {α : Type} {things : Array α} {handle : Handle} {thing : α}

theorem held_eq_ok_iff (things : Array α) (handle : Handle) (thing : α) :
    held things handle = .ok thing ↔
      ∃ index, handle = index + 1 ∧ things[index]? = some thing := by
  cases handle with
  | zero => simp [held]
  | succ index => cases there : things[index]? <;> simp [held, there]

theorem held_push (there : held things handle = .ok thing) (other : α) :
    held (things.push other) handle = .ok thing := by
  obtain ⟨index, rfl, stored⟩ := (held_eq_ok_iff _ _ _).mp there
  have inside := (Array.getElem?_eq_some_iff.mp stored).1
  refine (held_eq_ok_iff _ _ _).mpr ⟨index, rfl, ?_⟩
  rw [Array.getElem?_push_lt inside, Array.getElem_eq_iff.mpr stored]

theorem held_push_cases {other : α} (there : held (things.push other) handle = .ok thing) :
    held things handle = .ok thing ∨ handle = things.size + 1 ∧ thing = other := by
  obtain ⟨index, rfl, stored⟩ := (held_eq_ok_iff _ _ _).mp there
  rw [Array.getElem?_push] at stored
  split at stored
  · rename_i last
    exact .inr ⟨congrArg (· + 1) last, (Option.some.inj stored).symm⟩
  · exact .inl ((held_eq_ok_iff _ _ _).mpr ⟨index, rfl, stored⟩)

theorem held_push_self (things : Array α) (thing : α) :
    held (things.push thing) (things.size + 1) = .ok thing :=
  (held_eq_ok_iff _ _ _).mpr ⟨things.size, rfl, Array.getElem?_push_size⟩

/-- Only the handle that is rebound stands for something else. -/
theorem held_rebind (there : held things handle = .ok thing) (other : Handle) (changed : α) :
    held (rebind things handle changed) other =
      if other = handle then .ok changed else held things other := by
  obtain ⟨index, rfl, stored⟩ := (held_eq_ok_iff _ _ _).mp there
  have inside := (Array.getElem?_eq_some_iff.mp stored).1
  cases other with
  | zero => rfl
  | succ wanted =>
      simp only [held, rebind, Array.getElem?_setIfInBounds]
      by_cases here : index = wanted
      · subst here
        simp [inside]
      · simp [here, Ne.symm here]

theorem rebind_self (there : held things handle = .ok thing) :
    rebind things handle thing = things := by
  obtain ⟨index, rfl, stored⟩ := (held_eq_ok_iff _ _ _).mp there
  refine Array.ext_getElem? fun other => ?_
  simp only [rebind, Array.getElem?_setIfInBounds]
  split
  · rename_i here
    subst here
    rw [stored, if_pos (Array.getElem?_eq_some_iff.mp stored).1]
  · rfl

end Handles

end Session

/-! ## What a session holds -/

/-- An open table holds the definitions that it took, and a closed one is flat. -/
def TableState.Sound : TableState → Prop
  | .opened classes => ∃ decls, classes.Holds decls
  | .closed hierarchy => ∃ decls, hierarchy.Flat decls
  | .failed => True

def TableState.classes? : TableState → Option ClassTable
  | .opened classes => some classes
  | .closed hierarchy => some hierarchy.classes
  | .failed => none

namespace Session

def Sound (session : Session) : Prop :=
  ∀ handle state, held session.tables handle = .ok state → state.Sound

theorem sound_empty : empty.Sound := by
  intro handle state there
  obtain ⟨index, rfl, stored⟩ := (held_eq_ok_iff _ _ _).mp there
  cases stored

theorem Sound.push {session : Session} (sound : session.Sound) {state : TableState}
    (pushed : state.Sound) : Sound { session with tables := session.tables.push state } := by
  intro handle other there
  rcases held_push_cases there with older | ⟨_, rfl⟩
  · exact sound handle other older
  · exact pushed

theorem hierarchy_eq_ok_iff (session : Session) (handle : Handle) (hierarchy : Hierarchy) :
    session.hierarchy handle = .ok hierarchy ↔
      held session.tables handle = .ok (.closed hierarchy) := by
  unfold Session.hierarchy
  rcases held session.tables handle with _ | (_ | _ | _) <;>
    simp [bind, Except.bind, pure, Except.pure]

theorem openedTable_eq_ok_iff (session : Session) (handle : Handle) (classes : ClassTable) :
    session.openedTable handle = .ok classes ↔
      held session.tables handle = .ok (.opened classes) := by
  unfold openedTable
  rcases held session.tables handle with _ | (_ | _ | _) <;>
    simp [bind, Except.bind, pure, Except.pure]

theorem dispatcher_eq_ok_iff (session : Session) (handle : Handle) (dispatcher : Dispatcher)
    (store : Handle) :
    session.dispatcher handle = .ok (dispatcher, store) ↔
      ∃ table, held session.dispatchers handle = .ok ⟨table, store, dispatcher.options⟩ ∧
        held session.tables table = .ok (.closed dispatcher.hierarchy) := by
  unfold Session.dispatcher
  cases attached : held session.dispatchers handle with
  | error refusal => simp [bind, Except.bind]
  | ok attachment =>
      obtain ⟨table, home, options⟩ := attachment
      obtain ⟨hierarchy, options⟩ := dispatcher
      simp only [bind, Except.bind, pure, Except.pure, ← hierarchy_eq_ok_iff, Except.ok.injEq,
        Attachment.mk.injEq]
      cases found : session.hierarchy table with
      | error refusal =>
          simp only [reduceCtorEq, false_iff, not_exists, not_and]
          rintro other ⟨rfl, -⟩
          simp [found]
      | ok hierarchy =>
          simp only [Except.ok.injEq, Prod.mk.injEq, Dispatcher.mk.injEq]
          constructor
          · rintro ⟨⟨rfl, rfl⟩, rfl⟩
            exact ⟨table, ⟨rfl, rfl, rfl⟩, found⟩
          · rintro ⟨_, ⟨rfl, rfl, rfl⟩, same⟩
            exact ⟨⟨Except.ok.inj (found.symm.trans same), rfl⟩, rfl⟩

theorem classes_eq_ok_iff (session : Session) (handle : Handle) (classes : ClassTable) :
    session.classes handle = .ok classes ↔
      ∃ state, held session.tables handle = .ok state ∧ state.classes? = some classes := by
  unfold Session.classes
  rcases held session.tables handle with _ | (_ | _ | _) <;>
    simp [TableState.classes?, bind, Except.bind, pure, Except.pure]

theorem Sound.exists_holds {session : Session} (sound : session.Sound) {handle : Handle}
    {classes : ClassTable} (isTable : session.classes handle = .ok classes) :
    ∃ decls, classes.Holds decls := by
  obtain ⟨state, there, isState⟩ := (session.classes_eq_ok_iff _ _).mp isTable
  have stateSound := sound handle state there
  cases state with
  | opened _ =>
      cases isState
      exact stateSound
  | closed hierarchy =>
      cases isState
      obtain ⟨decls, flat⟩ := stateSound
      exact ⟨decls, flat.holds⟩
  | failed => cases isState

end Session

/-! ## Changes -/

namespace Session

/-- Tables and stores are the same, and the other handles keep their meaning. -/
structure Keeps (before after : Session) : Prop where
  tables : after.tables = before.tables
  stores : after.stores = before.stores
  dispatchers : ∀ handle attachment, held before.dispatchers handle = .ok attachment →
    held after.dispatchers handle = .ok attachment
  references : ∀ handle reference, held before.references handle = .ok reference →
    held after.references handle = .ok reference

theorem Keeps.refl (session : Session) : session.Keeps session :=
  ⟨rfl, rfl, fun _ _ there => there, fun _ _ there => there⟩

/-- The store that a command works on, if it works on one. -/
def storeOf (session : Session) : Command → Option Handle
  | .allocate store _ _ | .allocateNamed store _ _ _ | .write store _ _ _ _ | .keep store _
  | .release store _ _ => some store
  | .reference dispatcher _ _ | .exactReference dispatcher _ | .dispatcherAllocate dispatcher _ _
  | .dispatcherWrite dispatcher _ _ _ | .invoke dispatcher _ _ _ | .call dispatcher _ _ _
  | .send dispatcher _ _ _ => (session.dispatcher dispatcher).toOption.map (·.2)
  | _ => none

/-- The instance that a command works on, by its store and its number. -/
def subject (session : Session) : Command → Option (Handle × InstanceNo)
  | .write store _ id _ _ | .keep store id | .release store id _ => some (store, id)
  | .reference dispatcher id _ | .exactReference dispatcher id | .dispatcherWrite dispatcher id _ _
  | .send dispatcher id _ _ => do
      let found ← (session.dispatcher dispatcher).toOption
      return (found.2, id)
  | .invoke dispatcher reference _ _ | .call dispatcher reference _ _ => do
      let reference ← (held session.references reference).toOption
      let found ← (session.dispatcher dispatcher).toOption
      return (found.2, reference.target)
  | _ => none

/-- The instance that a query looks at, if it fails without one. -/
def querySubject (session : Session) : Query → Option (Handle × InstanceNo)
  | .classOf store id | .domainOf store id | .read store _ id _ | .readDeclared store _ id _ _
  | .snapshot store id => some (store, id)
  | .dispatcherClassOf dispatcher id | .dispatcherRead dispatcher id _ => do
      let found ← (session.dispatcher dispatcher).toOption
      return (found.2, id)
  | _ => none

section Subjects
variable {session : Session} {handle : Handle} {id : InstanceNo}

theorem eq_of_subject {dispatcher : Handle} {target : InstanceNo}
    (isSubject : (do
      let found ← (session.dispatcher dispatcher).toOption
      return (found.2, target)) = some (handle, id)) :
    target = id ∧ ∃ through, session.dispatcher dispatcher = .ok (through, handle) := by
  cases found : session.dispatcher dispatcher with
  | error refusal =>
      rw [found] at isSubject
      cases isSubject
  | ok pair =>
      obtain ⟨through, store⟩ := pair
      rw [found] at isSubject
      cases isSubject
      exact ⟨rfl, through, rfl⟩

theorem exists_reference_of_subject {dispatcher kept : Handle}
    (isSubject : (do
      let reference ← (held session.references kept).toOption
      let found ← (session.dispatcher dispatcher).toOption
      return (found.2, reference.target)) = some (handle, id)) :
    ∃ reference through, held session.references kept = .ok reference ∧ reference.target = id ∧
      session.dispatcher dispatcher = .ok (through, handle) := by
  cases isReference : held session.references kept with
  | error refusal =>
      rw [isReference] at isSubject
      cases isSubject
  | ok reference =>
      rw [isReference] at isSubject
      obtain ⟨isTarget, through, found⟩ := eq_of_subject isSubject
      exact ⟨reference, through, rfl, isTarget, found⟩

theorem subject_of_found {dispatcher : Handle} {through : Dispatcher}
    (found : session.dispatcher dispatcher = .ok (through, handle)) (id : InstanceNo) :
    (do
      let found ← (session.dispatcher dispatcher).toOption
      return (found.2, id)) = some (handle, id) := by
  rw [found]
  rfl

theorem subject_of_reference {dispatcher kept : Handle} {through : Dispatcher}
    {reference : Reference} (isReference : held session.references kept = .ok reference)
    (found : session.dispatcher dispatcher = .ok (through, handle)) :
    (do
      let reference ← (held session.references kept).toOption
      let found ← (session.dispatcher dispatcher).toOption
      return (found.2, reference.target)) = some (handle, reference.target) := by
  rw [isReference]
  exact subject_of_found found reference.target

theorem storeOf_of_found {dispatcher : Handle} {through : Dispatcher}
    (found : session.dispatcher dispatcher = .ok (through, handle)) :
    (session.dispatcher dispatcher).toOption.map (·.2) = some handle := by
  rw [found]
  rfl

/-- The instance that a command works on is in the store that it works on. -/
theorem storeOf_of_subject {command : Command}
    (isSubject : session.subject command = some (handle, id)) :
    session.storeOf command = some handle := by
  cases command with
  | write | keep | release =>
      cases isSubject
      rfl
  | reference | exactReference | dispatcherWrite | send =>
      obtain ⟨_, _, found⟩ := eq_of_subject isSubject
      exact storeOf_of_found found
  | invoke | call =>
      obtain ⟨_, _, _, _, found⟩ := exists_reference_of_subject isSubject
      exact storeOf_of_found found
  | _ => cases isSubject

end Subjects

/-- What a command can do to a session without taking anything from a store, and what it
reports: if it works on a store, on that one only. -/
inductive Progress (session : Session) : Option Handle → Session → List Event → Prop where
  /-- Nothing is done to tables and stores. -/
  | other {home : Option Handle} {after : Session} (rest : session.Keeps after) :
      Progress session home after []
  | opens : Progress session none
      { session with
        tables := session.tables.push (.opened (.empty (session.tables.size + 1))) } []
  | loads {decls : List ClassDecl} {hierarchy : Hierarchy}
      (run : Hierarchy.build (session.tables.size + 1) decls = .ok hierarchy)
      (events : List Event) : Progress session none
      { session with tables := session.tables.push (.closed hierarchy) } events
  | fails (events : List Event) : Progress session none
      { session with tables := session.tables.push .failed } events
  | defines {table : Handle} {classes extended : ClassTable} {decl : ClassDecl} {cls : Class}
      (isOpen : held session.tables table = .ok (.opened classes))
      (run : classes.define decl = .ok (extended, cls)) : Progress session none
      { session with tables := rebind session.tables table (.opened extended) }
      [extended.definedEvent cls]
  | closes {table : Handle} {classes : ClassTable} {hierarchy : Hierarchy}
      (isOpen : held session.tables table = .ok (.opened classes))
      (run : Hierarchy.ofTable classes = .ok hierarchy) : Progress session none
      { session with tables := rebind session.tables table (.closed hierarchy) }
      [hierarchy.closedEvent]
  | opensStore : Progress session none { session with stores := session.stores.push .empty } []
  | acts {table store : Handle} {classes : ClassTable} {instances changed : Store}
      {events : List Event} {after : Session} (isTable : session.classes table = .ok classes)
      (isStore : held session.stores store = .ok instances)
      (course : instances.Course classes events changed)
      (rest : Keeps { session with stores := rebind session.stores store changed } after) :
      Progress session (some store) after events

/-- What one command can do to a session, with what it reports. -/
inductive Change (session : Session) (command : Command) : Session → List Event → Prop where
  | goesOn {after : Session} {events : List Event}
      (noRelease : ∀ store id keep, command ≠ .release store id keep)
      (progress : session.Progress (session.storeOf command) after events) :
      Change session command after events
  | releases {store : Handle} {id : InstanceNo} {instances : Store} {after : Session}
      (isRelease : ∃ keep, command = .release store id keep)
      (isStore : held session.stores store = .ok instances)
      (rest : Keeps { session with
        stores := rebind session.stores store (Action.release id instances).store } after) :
      Change session command after (Action.release id instances).events
  /-- A release from a store that there is not. -/
  | misses {store : Handle} {id : InstanceNo}
      (isRelease : ∃ keep, command = .release store id keep)
      (noStore : ∀ instances, held session.stores store ≠ .ok instances) :
      Change session command session []

/-- What is done with the value of an action adds to the session and reports nothing. -/
def Adds {α : Type} (next : Session → α → List Event → Step) : Prop :=
  ∀ (session : Session) value events,
    session.Keeps (next session value events).session ∧
      (next session value events).events = events

theorem adds_keepInstance : Adds keepInstance := fun _ _ _ =>
  ⟨⟨rfl, rfl, fun _ _ there => there, fun _ _ there => there⟩, rfl⟩

theorem adds_keepReference : Adds keepReference := fun _ _ _ =>
  ⟨⟨rfl, rfl, fun _ _ there => there, fun _ _ there => held_push there _⟩, rfl⟩

theorem adds_answer {α : Type} (answer : α → Command.Answer) :
    Adds fun session value events => ⟨.ok (answer value), session, events⟩ :=
  fun session _ _ => ⟨.refl session, rfl⟩

/-- The step takes nothing from a store, and touches no store but the one given. -/
def GoesOn (session : Session) (home : Option Handle) (step : Step) : Prop :=
  session.Progress home step.session step.events

section Commands
variable {session : Session} {α : Type}

/-- An action leaves its store behind, whether it ends well or not. -/
theorem runOn_cases {store : Handle} {instances : Store}
    (isStore : held session.stores store = .ok instances) (action : Action α)
    {next : Session → α → List Event → Step} (adds : Adds next) :
    Keeps { session with stores := rebind session.stores store (action instances).store }
        (session.runOn store action next).session ∧
      (session.runOn store action next).events = (action instances).events := by
  simp only [runOn, isStore, withReply]
  cases (action instances).result with
  | ok value => exact adds _ value _
  | error failure => exact ⟨.refl _, rfl⟩

theorem goesOn_of_keeps {home : Option Handle} {step : Step}
    (rest : session.Keeps step.session) (silent : step.events = []) :
    session.GoesOn home step := by
  unfold GoesOn
  rw [silent]
  exact .other rest

theorem goesOn_withReply {home : Option Handle} (reply : Reply α) {next : α → Step}
    (rest : ∀ value, reply = .ok value → session.GoesOn home (next value)) :
    session.GoesOn home (session.withReply reply next) := by
  cases reply with
  | error refusal => exact goesOn_of_keeps (.refl session) rfl
  | ok value => exact rest value rfl

theorem goesOn_runOn {table : Handle} {classes : ClassTable}
    (isTable : session.classes table = .ok classes) (store : Handle) {action : Action α}
    (through : action.Through classes) {next : Session → α → List Event → Step}
    (adds : Adds next) : session.GoesOn (some store) (session.runOn store action next) := by
  cases isStore : held session.stores store with
  | error refusal =>
      simp only [runOn, isStore, withReply]
      exact goesOn_of_keeps (.refl session) rfl
  | ok instances =>
      obtain ⟨rest, sameEvents⟩ := runOn_cases isStore action adds
      unfold GoesOn
      rw [sameEvents]
      exact .acts isTable isStore (through instances) rest

/-- A look at a store changes nothing. -/
theorem goesOn_query (store : Handle) (ask : Store → Outcome α)
    {next : Session → α → List Event → Step} (adds : Adds next) :
    session.GoesOn (some store) (session.runOn store (Action.query ask) next) := by
  cases isStore : held session.stores store with
  | error refusal =>
      simp only [runOn, isStore, withReply]
      exact goesOn_of_keeps (.refl session) rfl
  | ok instances =>
      obtain ⟨rest, sameEvents⟩ := runOn_cases isStore (Action.query ask) adds
      rw [Action.run_query, rebind_self isStore] at rest
      exact goesOn_of_keeps rest sameEvents

section Sound
variable (sound : session.Sound)
include sound

theorem Sound.goesOn_dispatchOn (handle : Handle) (action : Dispatcher → Action α)
    (through : ∀ (dispatcher : Dispatcher) decls, dispatcher.hierarchy.Flat decls →
      (action dispatcher).Through dispatcher.hierarchy.classes)
    {next : Session → α → List Event → Step} (adds : Adds next) :
    session.GoesOn ((session.dispatcher handle).toOption.map (·.2))
      (session.dispatchOn handle action next) := by
  refine goesOn_withReply _ ?_
  rintro ⟨dispatcher, store⟩ found
  obtain ⟨table, _, isClosed⟩ := (session.dispatcher_eq_ok_iff handle dispatcher store).mp found
  obtain ⟨decls, flat⟩ := sound table _ isClosed
  have isTable : session.classes table = .ok dispatcher.hierarchy.classes :=
    (session.classes_eq_ok_iff _ _).mpr ⟨_, isClosed, rfl⟩
  rw [found]
  exact goesOn_runOn isTable store (through dispatcher decls flat) adds

theorem Sound.goesOn_answerThrough (handle : Handle) (action : Dispatcher → Action α)
    (through : ∀ (dispatcher : Dispatcher) decls, dispatcher.hierarchy.Flat decls →
      (action dispatcher).Through dispatcher.hierarchy.classes) (answer : α → Command.Answer) :
    session.GoesOn ((session.dispatcher handle).toOption.map (·.2))
      (session.answerThrough handle action answer) :=
  sound.goesOn_dispatchOn handle action through (adds_answer answer)

end Sound

theorem goesOn_build (decls : List ClassDecl) :
    session.GoesOn none (session.build decls) := by
  unfold build
  dsimp only
  split
  · rename_i hierarchy built
    exact .loads built _
  · exact .fails _

theorem goesOn_define (table : Handle) (decl : ClassDecl) :
    session.GoesOn none (session.define table decl) := by
  refine goesOn_withReply _ ?_
  intro classes found
  have isOpen := (session.openedTable_eq_ok_iff table classes).mp found
  cases run : classes.define decl with
  | error failure => exact goesOn_of_keeps (.refl session) rfl
  | ok made => exact .defines isOpen run

theorem goesOn_closeTable (table : Handle) :
    session.GoesOn none (session.closeTable table) := by
  refine goesOn_withReply _ ?_
  intro classes found
  have isOpen := (session.openedTable_eq_ok_iff table classes).mp found
  cases run : Hierarchy.ofTable classes with
  | error failure => exact goesOn_of_keeps (.refl session) rfl
  | ok hierarchy => exact .closes isOpen run

theorem change_release (store : Handle) (id : InstanceNo) (keep : Bool)
    {next : Session → Instance → List Event → Step} (adds : Adds next) :
    let step := session.runOn store (Action.release id) next
    session.Change (.release store id keep) step.session step.events := by
  intro step
  cases isStore : held session.stores store with
  | error refusal =>
      have isStep : step = session.refused refusal := by
        simp only [step, runOn, isStore, withReply]
      rw [isStep]
      refine .misses ⟨keep, rfl⟩ ?_
      intro instances isOther
      rw [isStore] at isOther
      cases isOther
  | ok instances =>
      obtain ⟨rest, sameEvents⟩ := runOn_cases isStore (Action.release id) adds
      rw [sameEvents]
      exact .releases ⟨keep, rfl⟩ isStore rest

theorem classes_of_findClass {ref : ClassRef} {cls : Class}
    (found : session.findClass ref = .ok cls) :
    ∃ classes, session.classes ref.table = .ok classes ∧ classes.lookup ref.name = .ok cls := by
  unfold findClass at found
  cases isTable : session.classes ref.table with
  | error refusal =>
      rw [isTable] at found
      cases found
  | ok classes =>
      rw [isTable] at found
      refine ⟨classes, rfl, ?_⟩
      simp only [bind, Except.bind] at found
      cases known : classes.lookup ref.name with
      | error failure =>
          rw [known] at found
          cases found
      | ok other =>
          rw [known] at found
          cases found
          rfl

theorem Sound.goesOn_perform (sound : session.Sound) {command : Command}
    (noRelease : ∀ store id keep, command ≠ .release store id keep) :
    session.GoesOn (session.storeOf command) (session.perform command) := by
  cases command with
  | release store id keep => exact absurd rfl (noRelease store id keep)
  | build decls => exact goesOn_build decls
  | openTable => exact .opens
  | define table decl => exact goesOn_define table decl
  | closeTable table => exact goesOn_closeTable table
  | openStore => exact .opensStore
  | allocate store ref domain =>
      refine goesOn_withReply _ fun cls found => ?_
      obtain ⟨classes, isTable, known⟩ := classes_of_findClass found
      refine goesOn_runOn isTable store (fun instances => ?_) (adds_answer _)
      exact .allocate .stay known domain
  | allocateNamed store table cls domain =>
      refine goesOn_withReply _ fun classes isTable => ?_
      exact goesOn_runOn isTable store (Action.through_allocateNamed cls domain)
        (adds_answer _)
  | write store table id field value =>
      refine goesOn_withReply _ fun classes isTable => ?_
      exact goesOn_runOn isTable store (Action.through_write id field value)
        (adds_answer _)
  | keep store id => exact goesOn_query store _ adds_keepInstance
  | create ref domain =>
      refine goesOn_withReply _ fun cls _ => ?_
      exact goesOn_of_keeps (adds_keepInstance session _ []).1 rfl
  | keptWrite inst view field value =>
      refine goesOn_withReply _ fun cls _ => ?_
      refine goesOn_withReply _ fun kept _ => ?_
      refine goesOn_withReply _ fun changed _ => ?_
      exact goesOn_of_keeps
        ⟨rfl, rfl, fun _ _ there => there, fun _ _ there => there⟩ rfl
  | attach table store options =>
      refine goesOn_withReply _ fun hierarchy _ => ?_
      refine goesOn_withReply _ fun instances _ => ?_
      exact goesOn_of_keeps
        ⟨rfl, rfl, fun _ _ there => held_push there _, fun _ _ there => there⟩ rfl
  | reference dispatcher id staticType =>
      exact sound.goesOn_dispatchOn dispatcher (·.reference id staticType)
        (fun through _ _ => through.through_reference id staticType) adds_keepReference
  | exactReference dispatcher id =>
      exact sound.goesOn_dispatchOn dispatcher (·.exactReference id)
        (fun through _ _ => through.through_exactReference id) adds_keepReference
  | dispatcherAllocate dispatcher cls domain =>
      exact sound.goesOn_answerThrough dispatcher (·.allocate cls domain)
        (fun _ _ _ => Action.through_allocateNamed cls domain) _
  | dispatcherWrite dispatcher id field value =>
      exact sound.goesOn_answerThrough dispatcher (·.write id field value)
        (fun _ _ _ => Action.through_write id field value) _
  | invoke dispatcher handle signature args =>
      refine goesOn_withReply _ fun reference _ => ?_
      exact sound.goesOn_answerThrough dispatcher (·.invoke reference signature args)
        (fun _ _ flat => Dispatcher.through_invoke flat reference signature args) _
  | call dispatcher handle method args =>
      refine goesOn_withReply _ fun reference _ => ?_
      exact sound.goesOn_answerThrough dispatcher (·.call reference method args)
        (fun _ _ flat => Dispatcher.through_invoke flat reference ⟨method, args.length⟩ args) _
  | send dispatcher id method args =>
      exact sound.goesOn_answerThrough dispatcher (·.send id method args)
        (fun _ _ flat => Dispatcher.through_send flat id method args) _

/-- Every command makes one of these changes. -/
theorem Sound.change_perform (sound : session.Sound) (command : Command) :
    session.Change command (session.perform command).session
      (session.perform command).events := by
  by_cases isRelease : ∃ store id keep, command = .release store id keep
  · obtain ⟨store, id, keep, rfl⟩ := isRelease
    cases keep with
    | true => exact change_release store id true adds_keepInstance
    | false => exact change_release store id false (adds_answer _)
  · have noRelease : ∀ store id keep, command ≠ .release store id keep :=
      fun store id keep same => isRelease ⟨store, id, keep, same⟩
    exact .goesOn noRelease (sound.goesOn_perform noRelease)

end Commands

/-- The session after one command after another. -/
def after (session : Session) (commands : List Command) : Session :=
  commands.foldl (fun reached command => (reached.perform command).session) session

theorem after_append (session : Session) (first second : List Command) :
    session.after (first ++ second) = (session.after first).after second :=
  List.foldl_append

end Session

end Lineage
