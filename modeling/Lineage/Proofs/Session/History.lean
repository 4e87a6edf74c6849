import Lineage.Proofs.Call.Gate
import Lineage.Proofs.Session.Evolution
import Lineage.Proofs.Store.Ledger

/-!
# The history of a store

The history of a store are the events of all commands that worked on it, those that failed
midway included.  It is a ledger of the store after every command (`accounted_after`): a change of a
session adds to the history of one store what it does there (`Accounted.change`) and leaves
all other stores alone.  A number that was released stands for nothing from then on, and
whoever goes to it is refused (`perform_of_dead`, `ask_of_dead`, `answer_of_dead`).
-/

set_option autoImplicit false

namespace Lineage

namespace Session

/-- What a command adds to the history of a store. -/
def share (session : Session) (handle : Handle) (command : Command) : List Event :=
  if session.storeOf command = some handle then (session.perform command).events else []

/-- The events of the commands that work on the store, one after another. -/
def history (handle : Handle) : Session → List Command → List Event
  | _, [] => []
  | session, command :: rest =>
      session.share handle command ++ history handle (session.perform command).session rest

theorem history_append (handle : Handle) (session : Session) (first second : List Command) :
    history handle session (first ++ second) =
      history handle session first ++ history handle (session.after first) second := by
  induction first generalizing session with
  | nil => rfl
  | cons command rest ih =>
      rw [List.cons_append, history, history, ih, List.append_assoc]
      rfl

/-- The events are a ledger of the store, and there are none before it is there. -/
structure Accounted (session : Session) (handle : Handle) (events : List Event) : Prop where
  ledger : ∀ store, held session.stores handle = .ok store → store.Ledger events
  unborn : (∀ store, held session.stores handle ≠ .ok store) → events = []

theorem accounted_empty (handle : Handle) : empty.Accounted handle [] where
  ledger store there := by
    obtain ⟨index, rfl, stored⟩ := (held_eq_ok_iff _ _ _).mp there
    cases stored
  unborn _ := rfl

section Changes
variable {session after : Session} {handle : Handle} {events more : List Event}
  (accounted : session.Accounted handle events)
include accounted

theorem Accounted.keeps (same : after.stores = session.stores) : after.Accounted handle events := by
  obtain ⟨ledger, unborn⟩ := accounted
  rw [← same] at ledger unborn
  exact ⟨ledger, unborn⟩

/-- A store that is opened has no history yet. -/
theorem Accounted.opens :
    Accounted { session with stores := session.stores.push .empty } handle events where
  ledger store there := by
    rcases held_push_cases there with older | ⟨isLast, rfl⟩
    · exact accounted.ledger store older
    · have nothing : events = [] := by
        apply accounted.unborn
        intro other isOther
        obtain ⟨index, sameIndex, stored⟩ := (held_eq_ok_iff _ _ _).mp isOther
        have inside := (Array.getElem?_eq_some_iff.mp stored).1
        rw [isLast] at sameIndex
        exact absurd (Nat.succ.inj sameIndex) (Nat.ne_of_gt inside)
      rw [nothing]
      exact Store.ledger_empty
  unborn missing := by
    apply accounted.unborn
    intro store there
    exact missing store (held_push there .empty)

/-- What is done on one store is entered into its own history. -/
theorem Accounted.works {home : Handle} {instances changed : Store}
    (isStore : held session.stores home = .ok instances)
    (same : after.stores = rebind session.stores home changed)
    (entered : instances.Ledger events → changed.Ledger (events ++ more)) :
    after.Accounted handle (events ++ if some home = some handle then more else []) := by
  by_cases here : handle = home
  · subst here
    rw [if_pos rfl]
    constructor
    · intro store there
      rw [same, held_rebind isStore, if_pos rfl] at there
      cases there
      exact entered (accounted.ledger instances isStore)
    · intro missing
      have rebound : held after.stores handle = .ok changed := by
        rw [same, held_rebind isStore, if_pos rfl]
      exact absurd rebound (missing changed)
  · have elsewhere : held after.stores handle = held session.stores handle := by
      rw [same, held_rebind isStore, if_neg here]
    rw [if_neg fun isHere => here (Option.some.inj isHere).symm, List.append_nil]
    constructor
    · rw [elsewhere]
      exact accounted.ledger
    · rw [elsewhere]
      exact accounted.unborn

theorem Accounted.progress {home : Option Handle} (progress : session.Progress home after more) :
    after.Accounted handle (events ++ if home = some handle then more else []) := by
  cases progress with
  | other rest =>
      rw [ite_self, List.append_nil]
      exact accounted.keeps rest.stores
  | opensStore => simpa using accounted.opens
  | acts isTable isStore course rest =>
      exact accounted.works isStore rest.stores fun ledger => ledger.course course
  | _ =>
      rw [if_neg nofun, List.append_nil]
      exact accounted.keeps rfl

theorem Accounted.change {command : Command} (change : session.Change command after more) :
    after.Accounted handle
      (events ++ if session.storeOf command = some handle then more else []) := by
  cases change with
  | goesOn noRelease progress => exact accounted.progress progress
  | @releases store id instances _ isRelease isStore rest =>
      obtain ⟨keep, rfl⟩ := isRelease
      exact accounted.works isStore rest.stores fun ledger => ledger.released id
  | misses isRelease noStore =>
      rw [ite_self, List.append_nil]
      exact accounted

end Changes

/-- After every command the history of a store is a ledger of it. -/
theorem accounted_after (handle : Handle) (commands : List Command) :
    (empty.after commands).Accounted handle (history handle empty commands) := by
  induction commands using List.reverseRecOn with
  | nil => exact accounted_empty handle
  | append_singleton commands command ih =>
      have sound := (sound_empty.evolves_after commands).sound
      have entered := ih.change (sound.change_perform command)
      rw [after_append, history_append, history, history, List.append_nil]
      exact entered

/-! ## Numbers that stand for nothing -/

/-- Whether the static type of a reference understands a signature. -/
def permits (session : Session) (dispatcher reference : Handle) (signature : Signature) :
    Reply Unit := do
  let reference ← held session.references reference
  let found ← session.dispatcher dispatcher
  Reply.ofOutcome (found.1.hierarchy.permits reference.staticType signature)

/-- What a command checks before it looks at the instance. -/
def gate (session : Session) : Command → Reply Unit
  | .write _ table _ _ _ => do
      let _ ← session.classes table
      return ()
  | .reference dispatcher _ staticType => do
      let found ← session.dispatcher dispatcher
      let _ ← Reply.ofOutcome (found.1.hierarchy.classes.idOf staticType)
      return ()
  | .invoke dispatcher reference signature _ => session.permits dispatcher reference signature
  | .call dispatcher reference method args =>
      session.permits dispatcher reference ⟨method, args.length⟩
  | _ => .ok ()

/-- What a query checks before it looks at the instance. -/
def queryGate (session : Session) : Query → Reply Unit
  | .read _ table _ _ => do
      let _ ← session.classes table
      return ()
  | .readDeclared _ table _ declaring _ => do
      let classes ← session.classes table
      let _ ← Reply.ofOutcome (classes.lookup declaring)
      return ()
  | _ => .ok ()

/-- The instance that a body asks something about. -/
def bodySubject : Native.Request → Option InstanceNo
  | .read target _ | .write target _ _ | .invoke target _ _ => some target
  | _ => none

/-- The refusal for a number that stands for nothing. -/
def gone (id : InstanceNo) : Refusal := .failed (.fault (.unknownInstance id))

section Dead
variable {session : Session} {α β : Type} {handle : Handle} {store : Store} {id : InstanceNo}

theorem withReply_bind (reply : Reply α) (next : α → Reply β) (last : β → Step) :
    session.withReply (reply >>= next) last =
      session.withReply reply fun value => session.withReply (next value) last := by
  cases reply <;> rfl

section Numbers
variable (dead : store.find? id = none)
include dead

theorem get_of_dead : store.get id = refuse (.unknownInstance id) := by
  rw [Store.get, dead]

theorem read_of_dead (classes : ClassTable) (field : String) :
    store.read classes id field = refuse (.unknownInstance id) := by
  rw [Store.read, get_of_dead dead]
  rfl

/-- The view is looked up first. -/
theorem readDeclared_of_dead (classes : ClassTable) (declaring field : String) :
    store.readDeclared classes id declaring field =
      (classes.lookup declaring >>= fun _ => refuse (.unknownInstance id)) := by
  rw [Store.readDeclared, get_of_dead dead]
  rfl

theorem update_of_dead (classes : ClassTable) (field : String) (value : Value) :
    Action.update (fun instances => instances.write classes id field value) store =
      ⟨refuse (.unknownInstance id), store, []⟩ := by
  simp [Action.update, Store.write, get_of_dead dead, refuse, bind, Except.bind]

theorem release_of_dead :
    Action.release id store = ⟨refuse (.unknownInstance id), store, []⟩ := by
  simp [Action.release, Store.release, get_of_dead dead, refuse, bind, Except.bind]

theorem exactReference_of_dead (dispatcher : Dispatcher) :
    dispatcher.exactReference id store = ⟨refuse (.unknownInstance id), store, []⟩ :=
  Action.run_bind_of_error (Dispatcher.classOf_of_dead dead) _

/-- A body that goes to a dead number is refused. -/
theorem answer_of_dead (frame : Frame) {request : Native.Request}
    (isSubject : bodySubject request = some id) :
    frame.answer request store = ⟨refuse (.unknownInstance id), store, []⟩ := by
  cases request with
  | read target field =>
      cases isSubject
      rw [Frame.answer, Dispatcher.read, Action.run_query, read_of_dead dead]
  | write target field value =>
      cases isSubject
      exact update_of_dead dead _ field value
  | invoke target method args =>
      cases isSubject
      exact Dispatcher.dispatch_of_dead _ _ args dead
  | _ => cases isSubject

end Numbers

section Commands
variable (isStore : held session.stores handle = .ok store)
include isStore

theorem runOn_of_refused {action : Action α} {failure : Failure}
    (run : action store = ⟨.error failure, store, []⟩) (next : Session → α → List Event → Step) :
    session.runOn handle action next = session.refused (.failed failure) := by
  simp only [runOn, isStore, withReply, run, rebind_self isStore, refused]

theorem dispatchOn_of_refused {dispatcher : Handle} {through : Dispatcher}
    (found : session.dispatcher dispatcher = .ok (through, handle))
    {action : Dispatcher → Action α} {failure : Failure}
    (run : action through store = ⟨.error failure, store, []⟩)
    (next : Session → α → List Event → Step) :
    session.dispatchOn dispatcher action next = session.refused (.failed failure) := by
  unfold dispatchOn
  rw [found]
  exact runOn_of_refused isStore run next

variable (dead : store.find? id = none)
include dead

/-- A call through a reference to a dead number is refused by the gate or for the number. -/
theorem invoke_of_dead {dispatcher kept : Handle} {through : Dispatcher} {reference : Reference}
    (isReference : held session.references kept = .ok reference)
    (found : session.dispatcher dispatcher = .ok (through, handle))
    (isTarget : reference.target = id) (signature : Signature) (args : List Value) :
    session.answerThrough dispatcher (·.invoke reference signature args) .value =
      session.withReply (session.permits dispatcher kept signature) fun _ =>
        session.refused (gone id) := by
  have checks : session.permits dispatcher kept signature =
      Reply.ofOutcome (through.hierarchy.permits reference.staticType signature) := by
    simp only [permits, isReference, found, bind, Except.bind]
  rw [checks]
  cases permitted : through.hierarchy.permits reference.staticType signature with
  | error failure =>
      apply dispatchOn_of_refused isStore found
      rw [Dispatcher.invoke_eq, permitted]
      rfl
  | ok _ =>
      apply dispatchOn_of_refused isStore found
      rw [Dispatcher.invoke_eq, permitted, Action.lift_ok_bind, isTarget]
      exact Dispatcher.dispatch_of_dead _ signature args dead

theorem reference_of_dead {dispatcher : Handle} {through : Dispatcher}
    (found : session.dispatcher dispatcher = .ok (through, handle)) (staticType : String) :
    session.dispatchOn dispatcher (·.reference id staticType) keepReference =
      session.withReply (session.gate (.reference dispatcher id staticType)) fun _ =>
        session.refused (gone id) := by
  simp only [gate, found, withReply_bind]
  change _ = session.withReply (Reply.ofOutcome (through.hierarchy.classes.idOf staticType)) _
  cases known : through.hierarchy.classes.idOf staticType with
  | error failure =>
      apply dispatchOn_of_refused isStore found
      unfold Dispatcher.reference
      rw [known]
      rfl
  | ok static =>
      apply dispatchOn_of_refused isStore found
      unfold Dispatcher.reference
      rw [known, Action.lift_ok_bind]
      exact Action.run_bind_of_error (Dispatcher.classOf_of_dead dead) _

/-- Whatever a command would do with a dead number, it is refused, for the number unless a
check that does not look at it comes first, and nothing is done. -/
theorem perform_of_dead {command : Command}
    (isSubject : session.subject command = some (handle, id)) :
    session.perform command =
      session.withReply (session.gate command) fun _ => session.refused (gone id) := by
  cases command with
  | write home table target field value =>
      cases isSubject
      rw [gate, withReply_bind]
      refine congrArg (session.withReply _) (funext fun classes => ?_)
      exact runOn_of_refused isStore (update_of_dead dead classes field value) _
  | keep home target =>
      cases isSubject
      apply runOn_of_refused isStore
      rw [Action.run_query, get_of_dead dead]
      rfl
  | release home target keep =>
      cases isSubject
      cases keep with
      | true => exact runOn_of_refused isStore (release_of_dead dead) keepInstance
      | false =>
          change session.answerOn handle (Action.release id) _ = session.refused (gone id)
          exact runOn_of_refused isStore (release_of_dead dead) _
  | reference dispatcher target staticType =>
      obtain ⟨rfl, through, found⟩ := eq_of_subject isSubject
      exact reference_of_dead isStore dead found staticType
  | exactReference dispatcher target =>
      obtain ⟨rfl, through, found⟩ := eq_of_subject isSubject
      change session.dispatchOn dispatcher (·.exactReference target) keepReference = _
      exact dispatchOn_of_refused isStore found (exactReference_of_dead dead through) _
  | dispatcherWrite dispatcher target field value =>
      obtain ⟨rfl, through, found⟩ := eq_of_subject isSubject
      change session.answerThrough dispatcher _ _ = session.refused (gone target)
      exact dispatchOn_of_refused isStore found (update_of_dead dead _ field value) _
  | send dispatcher target method args =>
      obtain ⟨rfl, through, found⟩ := eq_of_subject isSubject
      change session.answerThrough dispatcher _ _ = session.refused (gone target)
      apply dispatchOn_of_refused isStore found
      exact Action.run_bind_of_error (exactReference_of_dead dead through) _
  | invoke dispatcher kept signature args =>
      obtain ⟨reference, through, isReference, isTarget, found⟩ :=
        exists_reference_of_subject isSubject
      rw [perform, isReference]
      exact invoke_of_dead isStore dead isReference found isTarget signature args
  | call dispatcher kept method args =>
      obtain ⟨reference, through, isReference, isTarget, found⟩ :=
        exists_reference_of_subject isSubject
      rw [perform, isReference]
      exact invoke_of_dead isStore dead isReference found isTarget ⟨method, args.length⟩ args
  | _ => cases isSubject

/-- The same for queries. -/
theorem ask_of_dead {query : Query} (isSubject : session.querySubject query = some (handle, id)) :
    session.ask query = (session.queryGate query >>= fun _ => .error (gone id)) := by
  have missing := get_of_dead dead
  cases query with
  | classOf home target =>
      cases isSubject
      simp [ask, queryGate, isStore, Store.classOf, missing, refuse, Reply.ofOutcome, gone,
        Except.map, bind, Except.bind]
  | domainOf home target =>
      cases isSubject
      simp [ask, queryGate, isStore, Store.domainOf, missing, refuse, Reply.ofOutcome, gone,
        Except.map, bind, Except.bind]
  | read home table target field =>
      cases isSubject
      simp only [ask, queryGate, isStore, bind, Except.bind]
      cases session.classes table with
      | error refusal => rfl
      | ok classes => simp [read_of_dead dead, refuse, Reply.ofOutcome, gone, pure, Except.pure]
  | readDeclared home table target declaring field =>
      cases isSubject
      simp only [ask, queryGate, isStore, bind, Except.bind]
      cases session.classes table with
      | error refusal => rfl
      | ok classes =>
          cases known : classes.lookup declaring with
          | error failure =>
              simp [readDeclared_of_dead dead, known, Reply.ofOutcome, bind, Except.bind]
          | ok view =>
              simp [readDeclared_of_dead dead, known, refuse, Reply.ofOutcome, gone, bind,
                Except.bind, pure, Except.pure]
  | snapshot home target =>
      cases isSubject
      simp [ask, queryGate, isStore, missing, refuse, Reply.ofOutcome, gone, bind, Except.bind]
  | dispatcherClassOf dispatcher target =>
      obtain ⟨rfl, through, found⟩ := eq_of_subject isSubject
      simp [ask, queryGate, outcomeThrough, found, isStore, Dispatcher.classOf_of_dead dead, refuse,
        Reply.ofOutcome, gone, bind, Except.bind]
  | dispatcherRead dispatcher target field =>
      obtain ⟨rfl, through, found⟩ := eq_of_subject isSubject
      simp [ask, queryGate, outcomeThrough, found, isStore, Dispatcher.read, read_of_dead dead,
        refuse, Reply.ofOutcome, gone, bind, Except.bind]
  | _ => cases isSubject

end Commands

end Dead

/-- The numbers of a store are accounted for by its history, after every command.  The
allocations took 1, 2, 3 and so on, one that fails takes no number, and replaying the history
gives the live numbers, as many as were allocated and not released, at every point of a call
as well.  Only a release ends a life.  A number that was released is dead for good: whoever
works on it is refused, for the number unless a check that does not look at it comes first. -/
theorem history_accounts (commands : List Command) (handle : Handle) (store : Store)
    (isStore : held (empty.after commands).stores handle = .ok store) :
    let session := empty.after commands
    let events := history handle empty commands
    events.filterMap Event.allocated? = List.range' 1 (store.next - 1) ∧
    events.foldl Event.replay [] = store.numbers ∧
    (∀ id, id ∈ store.numbers ↔ ∃ inst, store.find? id = some inst) ∧
    store.size + (events.filterMap Event.released?).length =
      (events.filterMap Event.allocated?).length ∧
    (∀ classes cls domain, (∃ found, Action.allocateNamed classes cls domain store =
          ⟨.ok store.next, store.allocate found domain,
            [.allocated store.next found.name domain]⟩) ∨
      ∃ failure, Action.allocateNamed classes cls domain store = ⟨.error failure, store, []⟩) ∧
    (∀ (frame : Frame) cls mark, (∃ found domain, frame.allocate cls mark store =
          ⟨.ok store.next, store.allocate found domain,
            [.allocated store.next found.name domain]⟩) ∨
      ∃ failure, frame.allocate cls mark store = ⟨.error failure, store, []⟩) ∧
    (∀ command, ∃ now, held (session.perform command).session.stores handle = .ok now ∧
      ∀ id ∈ store.numbers, ¬ command.Releases handle id → id ∈ now.numbers) ∧
    (∀ classes more reached, store.Course classes more reached →
      (events ++ more).foldl Event.replay [] = reached.numbers ∧
      ∀ id ∈ events.filterMap Event.released?, ∀ (frame : Frame) request,
        bodySubject request = some id →
          frame.answer request reached = ⟨refuse (.unknownInstance id), reached, []⟩) ∧
    (∀ id ∈ events.filterMap Event.released?, store.contains id = false ∧
      (∀ command, session.subject command = some (handle, id) → session.perform command =
        session.withReply (session.gate command) fun _ => session.refused (gone id)) ∧
      ∀ query, session.querySubject query = some (handle, id) →
        session.ask query = (session.queryGate query >>= fun _ => .error (gone id))) := by
  intro session events
  have sound : session.Sound := (sound_empty.evolves_after commands).sound
  have ledger := (accounted_after handle commands).ledger store isStore
  refine ⟨ledger.order, ledger.live, ?_, ledger.balance, ?_, ?_, ?_, ?_, ?_⟩
  · intro id
    rw [Store.mem_numbers_iff, Store.contains_iff]
  · intro classes cls domain
    exact Action.allocateNamed_cases classes cls domain store
  · intro frame cls mark
    exact frame.allocate_cases cls mark store
  · intro command
    obtain ⟨now, isNow, evolves⟩ := (sound.evolves_perform command).stores handle store isStore
    refine ⟨now, isNow, ?_⟩
    intro id isNumber notReleased
    obtain ⟨inst, found⟩ := Store.contains_iff.mp (Store.mem_numbers_iff.mp isNumber)
    obtain ⟨later, isLater, _⟩ := evolves.kept id inst found notReleased
    exact Store.mem_numbers_iff.mpr (Store.contains_iff.mpr ⟨later, isLater⟩)
  · intro classes more reached course
    have reachedLedger := ledger.course course
    refine ⟨reachedLedger.live, ?_⟩
    intro id released frame request isSubject
    apply answer_of_dead _ frame isSubject
    apply (reachedLedger.gone id _).2
    rw [List.filterMap_append]
    exact List.mem_append_left _ released
  · intro id released
    have nothing := (ledger.gone id released).2
    refine ⟨?_, ?_, ?_⟩
    · rw [Store.contains, nothing]
      rfl
    · intro command isSubject
      exact perform_of_dead isStore nothing isSubject
    · intro query isSubject
      exact ask_of_dead isStore nothing isSubject

/-- The leaf of a call that failed midway has its number, and the node that was released
stays dead. -/
theorem grown_accounts :
    let commands : List Command :=
      [.build sampleDecls, .openStore, .attach 1 1 {}, .dispatcherAllocate 1 "Node" .managed,
        .dispatcherAllocate 1 "Knot" .managed, .dispatcherAllocate 1 "Node" .unmanaged,
        .send 1 1 "grow" [], .release 1 1 false]
    let session := empty.after commands
    let events := history 1 empty commands
    ∃ store, held session.stores 1 = .ok store ∧
      events.filterMap Event.allocated? = [1, 2, 3] ∧
      events.foldl Event.replay [] = [2, 3] ∧ store.size + 1 = 3 ∧
      session.perform (.send 1 1 "grow" []) = session.refused (gone 1) ∧
      session.ask (.classOf 1 1) = .error (gone 1) := by
  intro commands session events
  let grown : Store :=
    ⟨#[none, some ⟨⟨1, 0⟩, .unmanaged, [.nil, .str "node"]⟩,
      some ⟨⟨1, 1⟩, .managed, [.object 1, .str "node", .str "linked"]⟩]⟩
  have isStore : held session.stores 1 = .ok grown := by decide +kernel
  have released : events.filterMap Event.released? = [1] := by decide +kernel
  have isSubject : session.subject (.send 1 1 "grow" []) = some (1, 1) := by decide +kernel
  obtain ⟨order, live, _, balance, _, _, _, _, dead⟩ := history_accounts commands 1 grown isStore
  obtain ⟨_, noCommand, noQuery⟩ := dead 1 (released ▸ List.mem_singleton_self 1)
  rw [released, order] at balance
  exact ⟨grown, isStore, order, live, balance, noCommand (.send 1 1 "grow" []) isSubject,
    noQuery (.classOf 1 1) rfl⟩

/-- A call of what the static type does not understand is refused for that, although the
instance is gone. -/
theorem dead_number_not_noticed :
    let commands : List Command :=
      [.build sampleDecls, .openStore, .attach 1 1 {}, .dispatcherAllocate 1 "Node" .managed,
        .exactReference 1 1, .release 1 1 false]
    let session := empty.after commands
    1 ∈ (history 1 empty commands).filterMap Event.released? ∧
      ¬ ∀ command, session.subject command = some (1, 1) →
        (session.perform command).reply = .error (gone 1) := by
  intro commands session
  refine ⟨by decide +kernel, ?_⟩
  intro always
  have refused : (session.perform (.invoke 1 1 ⟨"cut", 0⟩ [])).reply =
      .error (.failed (.fault (.noSuchMethod "Node" ⟨"cut", 0⟩))) := rfl
  cases refused.symm.trans (always (.invoke 1 1 ⟨"cut", 0⟩ []) rfl)

end Session

end Lineage
