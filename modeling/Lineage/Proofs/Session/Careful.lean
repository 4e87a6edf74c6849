import Lineage.Proofs.Session.Evolution
import Lineage.Proofs.Session.Failures
import Lineage.Proofs.Store.Closed

/-!
# Careful hosts

A host is careful if it releases nothing and passes to a store only objects that it received
from it, as the answer of a command or a query (`Careful`, `CarefulRun`).  Then all stores
stay closed and what was received stays live (`Intact`), so no instance is ever missed.  A
command that runs an action on a store keeps all that if the action keeps the discipline of
closed stores (`tended_runOn`).
-/

set_option autoImplicit false

namespace Lineage

/-- An instance is not there. -/
def Failure.Missing (failure : Failure) : Prop := ∃ id, failure = .fault (.unknownInstance id)

theorem onlyOdd_missing : OnlyOdd Failure.Missing := by
  rintro failure ⟨id, rfl⟩
  exact .unknown id

theorem not_missing_breach : ¬ Failure.Missing .breach := nofun

/-! ## What is passed and received -/

/-- The values that a command passes to a store. -/
def Command.values : Command → List Value
  | .write _ _ _ _ value | .dispatcherWrite _ _ _ value => [value]
  | .invoke _ _ _ args | .call _ _ _ args | .send _ _ _ args => args
  | _ => []

/-- The dispatcher through which a command calls a method. -/
def Command.caller : Command → Option Handle
  | .invoke dispatcher _ _ _ | .call dispatcher _ _ _ | .send dispatcher _ _ _ => some dispatcher
  | _ => none

/-- The values that a host receives with the answer of a command. -/
def Command.Answer.values : Command.Answer → List Value
  | .object id => [.object id]
  | .value content => [content]
  | .inst given _ => given.slots
  | .reference _ made => [.object made.target]
  | _ => []

/-- The values that a host receives with the answer of a query. -/
def Query.Answer.values : Query.Answer → List Value
  | .value content => [content]
  | .inst given => given.slots
  | .instances numbered => numbered.flatMap fun listed => .object listed.1 :: listed.2.slots
  | _ => []

/-- The values of the answer, if there is one. -/
def Reply.values {α : Type} (reply : Reply α) (values : α → List Value) : List Value :=
  match reply with
  | .ok answer => values answer
  | .error _ => []

theorem Reply.eq_ok_of_ofOutcome {α : Type} {outcome : Outcome α} {value : α}
    (run : Reply.ofOutcome outcome = .ok value) : outcome = .ok value := by
  cases outcome with
  | ok other =>
      cases run
      rfl
  | error failure => cases run

namespace Session

/-- The store that a query gives values of. -/
def queryStore (session : Session) : Query → Option Handle
  | .read store _ _ _ | .readDeclared store _ _ _ _ | .snapshot store _ | .storeUpTo store _ =>
      some store
  | .dispatcherRead dispatcher _ _ => (session.dispatcher dispatcher).toOption.map (·.2)
  | _ => none

/-- Instances by their stores and their numbers. -/
abbrev Received := List (Handle × InstanceNo)

/-- The objects among the values of a store, if there is a store. -/
def objectsOf (home : Option Handle) (values : List Value) : Received :=
  match home with
  | none => []
  | some handle => values.filterMap fun value => value.object?.map (handle, ·)

theorem mem_objectsOf_iff (home : Option Handle) (values : List Value) (handle : Handle)
    (id : InstanceNo) :
    (handle, id) ∈ objectsOf home values ↔ home = some handle ∧ .object id ∈ values := by
  cases home with
  | none => simp [objectsOf]
  | some store =>
      simp only [objectsOf, List.mem_filterMap, Option.map_eq_some_iff, Value.object?_eq_some_iff,
        Prod.mk.injEq, Option.some.injEq]
      constructor
      · rintro ⟨_, isValue, _, rfl, rfl, rfl⟩
        exact ⟨rfl, isValue⟩
      · rintro ⟨rfl, isValue⟩
        exact ⟨_, isValue, id, rfl, rfl, rfl⟩

/-- The command releases nothing, names an instance and passes objects that were received
from the store it works on, and runs no bodies that the host provides. -/
structure Careful (session : Session) (received : Received) (command : Command) : Prop where
  noRelease : ∀ store id keep, command ≠ .release store id keep
  subject : ∀ named, session.subject command = some named → named ∈ received
  passes : objectsOf (session.storeOf command) command.values ⊆ received
  plain : ∀ dispatcher through home, command.caller = some dispatcher →
    session.dispatcher dispatcher = .ok (through, home) → through.hierarchy.Plain

theorem Careful.passed {session : Session} {received : Received} {command : Command}
    (careful : session.Careful received command) {handle : Handle} {id : InstanceNo}
    (isSubject : session.subject command = some (handle, id)) :
    ∀ other, .object other ∈ Value.object id :: command.values → (handle, other) ∈ received := by
  intro other isPassed
  rcases List.mem_cons.mp isPassed with isTarget | isValue
  · rw [Value.object.inj isTarget]
    exact careful.subject (handle, id) isSubject
  · apply careful.passes
    rw [mem_objectsOf_iff]
    exact ⟨storeOf_of_subject isSubject, isValue⟩

/-- A command that names no instance and calls no method is careful. -/
theorem careful_of_idle {session : Session} {received : Received} {command : Command}
    (noRelease : ∀ store id keep, command ≠ .release store id keep)
    (noSubject : session.subject command = none) (noValues : command.values = [])
    (noCall : command.caller = none) : session.Careful received command where
  noRelease := noRelease
  subject named isSubject := by
    rw [noSubject] at isSubject
    cases isSubject
  passes := by
    rintro ⟨handle, id⟩ isPassed
    rw [mem_objectsOf_iff, noValues] at isPassed
    cases isPassed.2
  plain dispatcher through home isCaller := by
    rw [noCall] at isCaller
    cases isCaller

/-- What a host comes to that is careful all the time, with what it received until then. -/
inductive CarefulRun : Session → Received → Prop where
  | start : CarefulRun empty []
  | perform {session : Session} {received : Received} {command : Command}
      (before : CarefulRun session received) (careful : session.Careful received command) :
      CarefulRun (session.perform command).session
        (received ++ objectsOf (session.storeOf command)
          ((session.perform command).reply.values Command.Answer.values))
  | ask {session : Session} {received : Received} {query : Query}
      (before : CarefulRun session received)
      (careful : ∀ named, session.querySubject query = some named → named ∈ received) :
      CarefulRun session (received ++ objectsOf (session.queryStore query)
        ((session.ask query).values Query.Answer.values))

/-- All stores are closed, and what was received is live. -/
structure Intact (session : Session) (received : Received) : Prop where
  sound : session.Sound
  closed : ∀ handle store, held session.stores handle = .ok store → store.Closed
  live : ∀ handle id, (handle, id) ∈ received →
    ∃ store, held session.stores handle = .ok store ∧ store.Live id

theorem intact_empty : empty.Intact [] where
  sound := sound_empty
  closed handle store there := by
    obtain ⟨index, rfl, stored⟩ := (held_eq_ok_iff _ _ _).mp there
    cases stored
  live _ _ nothing := by cases nothing

/-- What a step on one store leaves: closed stores and a reply whose objects are live and
that misses no instance. -/
structure Tended (home : Option Handle) (step : Step) : Prop where
  spares : step.reply.Spares Failure.Missing
  closed : ∀ handle store, held step.session.stores handle = .ok store → store.Closed
  live : ∀ handle id, home = some handle →
    .object id ∈ step.reply.values Command.Answer.values →
      ∃ store, held step.session.stores handle = .ok store ∧ store.Live id

/-- What is done with the value of an action is an answer with no more values than it gives. -/
def Hands {α : Type} (gives : α → List Value) (next : Session → α → List Event → Step) : Prop :=
  ∀ after value events, ∃ answer, (next after value events).reply = .ok answer ∧
    answer.values ⊆ gives value

theorem hands_answer {α : Type} {gives : α → List Value} {answer : α → Command.Answer}
    (included : ∀ value, (answer value).values ⊆ gives value) :
    Hands gives fun after value events => ⟨.ok (answer value), after, events⟩ :=
  fun _ value _ => ⟨answer value, rfl, included value⟩

theorem hands_keepInstance : Hands Instance.slots keepInstance :=
  fun _ inst _ => ⟨.inst inst _, rfl, List.Subset.refl inst.slots⟩

theorem hands_keepReference :
    Hands (fun reference => [.object reference.target]) keepReference :=
  fun _ reference _ =>
    ⟨.reference _ reference, rfl, List.Subset.refl [Value.object reference.target]⟩

section Steps
variable {session : Session} {received : Received} (intact : session.Intact received)
  {α : Type} {given : List Value} {gives : α → List Value}
include intact

theorem Intact.live_of_held {handle : Handle} {store : Store} {id : InstanceNo}
    (isReceived : (handle, id) ∈ received) (isStore : held session.stores handle = .ok store) :
    store.Live id := by
  obtain ⟨other, isOther, live⟩ := intact.live handle id isReceived
  rw [isStore] at isOther
  cases isOther
  exact live

/-- Who works on no store may still open an empty one. -/
theorem Intact.closed_of_progress {after : Session} {events : List Event}
    (progress : session.Progress none after events) :
    ∀ handle store, held after.stores handle = .ok store → store.Closed := by
  cases progress with
  | other rest =>
      rw [rest.stores]
      exact intact.closed
  | opensStore =>
      intro handle store there
      rcases held_push_cases there with older | ⟨_, rfl⟩
      · exact intact.closed handle store older
      · exact Store.closed_empty
  | _ => exact intact.closed

theorem Intact.tended_of_goesOn {step : Step} (goesOn : session.GoesOn none step)
    (spares : step.reply.Spares Failure.Missing) : Tended none step where
  spares := spares
  closed := intact.closed_of_progress goesOn
  live _ _ nowhere := by cases nowhere

theorem Intact.tended_refused {home : Option Handle} {refusal : Refusal}
    (spares : Reply.Spares Failure.Missing (.error refusal : Reply Command.Answer)) :
    Tended home (session.refused refusal) where
  spares := spares
  closed := intact.closed
  live _ _ _ nothing := by cases nothing

theorem Intact.tended_withReply {home : Option Handle} {reply : Reply α}
    (first : reply.Spares Failure.Missing) {next : α → Step}
    (rest : ∀ value, reply = .ok value → Tended home (next value)) :
    Tended home (session.withReply reply next) := by
  cases reply with
  | ok value => exact rest value rfl
  | error refusal => exact intact.tended_refused first.error

/-- An action on a store that keeps it closed, on numbers that were received. -/
theorem Intact.tended_runOn {home : Handle} {action : Action α}
    (keeps : closure.Keeps given gives action)
    (passed : ∀ id, .object id ∈ given → (home, id) ∈ received)
    {next : Session → α → List Event → Step} (adds : Adds next) (hands : Hands gives next) :
    Tended (some home) (session.runOn home action next) := by
  cases isStore : held session.stores home with
  | error refusal =>
      have spares : (held session.stores home).Spares Failure.Missing := spares_held _ _
      rw [isStore] at spares
      simp only [runOn, isStore, withReply]
      exact intact.tended_refused spares.error
  | ok store =>
      have kept := keeps store (intact.closed home store isStore) fun id isGiven =>
        intact.live_of_held (passed id isGiven) isStore
      have changes := (runOn_cases isStore action adds).1.stores
      have now : held (session.runOn home action next).session.stores home =
          .ok (action store).store := by
        rw [changes, held_rebind isStore, if_pos rfl]
      have ends : (∃ value answer, (action store).result = .ok value ∧
            (session.runOn home action next).reply = .ok answer ∧ answer.values ⊆ gives value) ∨
          ∃ failure, (action store).result = .error failure ∧
            (session.runOn home action next).reply = .error (.failed failure) := by
        simp only [runOn, isStore, withReply]
        cases result : (action store).result with
        | ok value =>
            obtain ⟨answer, isAnswer, included⟩ := hands _ value _
            exact .inl ⟨value, answer, rfl, isAnswer, included⟩
        | error failure => exact .inr ⟨failure, rfl, rfl⟩
      refine ⟨?_, ?_, ?_⟩
      · obtain ⟨value, answer, _, isAnswer, _⟩ | ⟨failure, result, isRefusal⟩ := ends
        · rw [isAnswer]
          exact spares_answer answer
        · rw [isRefusal]
          rintro _ ⟨⟩ ⟨id, rfl⟩
          exact closure_unnumbered kept id result
      · intro handle other there
        rw [changes, held_rebind isStore] at there
        split at there
        · cases there
          exact kept.valid
        · exact intact.closed handle other there
      · intro handle id here isObject
        cases here
        refine ⟨(action store).store, now, ?_⟩
        obtain ⟨value, answer, result, isAnswer, included⟩ | ⟨failure, _, isRefusal⟩ := ends
        · rw [isAnswer] at isObject
          exact kept.gives value result id (included isObject)
        · rw [isRefusal] at isObject
          cases isObject

theorem Intact.tended_dispatchOn (dispatcher : Handle) (action : Dispatcher → Action α)
    (given : List Value) (keeps : ∀ through home decls,
      session.dispatcher dispatcher = .ok (through, home) → through.hierarchy.Flat decls →
        closure.Keeps given gives (action through))
    (passed : ∀ through home, session.dispatcher dispatcher = .ok (through, home) →
      ∀ id, .object id ∈ given → (home, id) ∈ received)
    {next : Session → α → List Event → Step} (adds : Adds next) (hands : Hands gives next) :
    Tended ((session.dispatcher dispatcher).toOption.map (·.2))
      (session.dispatchOn dispatcher action next) := by
  apply intact.tended_withReply (session.spares_dispatcher dispatcher)
  rintro ⟨through, home⟩ found
  obtain ⟨decls, flat⟩ := intact.sound.exists_flat_of_dispatcher found
  rw [found]
  exact intact.tended_runOn (keeps through home decls found flat) (passed through home found) adds
    hands

theorem Intact.tended_answerThrough (dispatcher : Handle) (action : Dispatcher → Action α)
    (given : List Value) (keeps : ∀ through home decls,
      session.dispatcher dispatcher = .ok (through, home) → through.hierarchy.Flat decls →
        closure.Keeps given gives (action through))
    (passed : ∀ through home, session.dispatcher dispatcher = .ok (through, home) →
      ∀ id, .object id ∈ given → (home, id) ∈ received)
    {answer : α → Command.Answer} (included : ∀ value, (answer value).values ⊆ gives value) :
    Tended ((session.dispatcher dispatcher).toOption.map (·.2))
      (session.answerThrough dispatcher action answer) :=
  intact.tended_dispatchOn dispatcher action given keeps passed (adds_answer answer)
    (hands_answer included)

end Steps

section Commands
variable {session : Session} {received : Received} (intact : session.Intact received)
include intact

/-- A call through a reference whose target and arguments were received. -/
theorem Intact.tended_invoke {dispatcher : Handle} {reference : Reference} {args : List Value}
    (plain : ∀ through home, session.dispatcher dispatcher = .ok (through, home) →
      through.hierarchy.Plain) (signature : Signature)
    (passed : ∀ through home, session.dispatcher dispatcher = .ok (through, home) →
      ∀ id, .object id ∈ Value.object reference.target :: args → (home, id) ∈ received) :
    Tended ((session.dispatcher dispatcher).toOption.map (·.2))
      (session.answerThrough dispatcher (·.invoke reference signature args) .value) := by
  apply intact.tended_answerThrough dispatcher (·.invoke reference signature args)
    (.object reference.target :: args) _ passed fun _ _ isValue => isValue
  intro through home decls found flat
  exact Dispatcher.keeps_call (closure_respected _) flat (plain through home found)
    through.options reference signature args

theorem Intact.tended_perform {command : Command} (careful : session.Careful received command) :
    Tended (session.storeOf command) (session.perform command) := by
  have spares_class := intact.sound.spares_findClass onlyOdd_missing.sparesTables
  have goesOn := intact.sound.goesOn_perform careful.noRelease
  cases command with
  | build decls =>
      have spares := session.spares_build onlyOdd_missing.sparesDefinitions decls
      exact intact.tended_of_goesOn goesOn spares
  | openTable => exact intact.tended_of_goesOn goesOn (spares_answer _)
  | define table decl =>
      have spares := intact.sound.spares_define onlyOdd_missing.sparesDefinitions table decl
      exact intact.tended_of_goesOn goesOn spares
  | closeTable table =>
      exact intact.tended_of_goesOn goesOn (intact.sound.spares_closeTable table)
  | openStore => exact intact.tended_of_goesOn goesOn (spares_answer _)
  | allocate store ref domain =>
      apply intact.tended_withReply (spares_class ref)
      intro cls found
      obtain ⟨classes, _, _⟩ := classes_of_findClass found
      have keeps := Discipline.keeps_allocate (closure_respected classes) cls domain
      exact intact.tended_runOn keeps nofun (adds_answer _)
        (hands_answer fun _ => List.Subset.refl _)
  | allocateNamed store table cls domain =>
      apply intact.tended_withReply (session.spares_classes table)
      intro classes _
      have keeps := Discipline.keeps_allocateNamed (closure_respected classes) cls domain
      exact intact.tended_runOn keeps nofun (adds_answer _)
        (hands_answer fun _ => List.Subset.refl _)
  | write store table id field value =>
      apply intact.tended_withReply (session.spares_classes table)
      intro classes _
      have keeps := Discipline.keeps_write (closure_respected classes) id field value
      have passed := @Careful.passed session received _ careful store id rfl
      exact intact.tended_runOn keeps passed (adds_answer _)
        (hands_answer fun _ => List.nil_subset _)
  | keep store id =>
      have passed := @Careful.passed session received _ careful store id rfl
      exact intact.tended_runOn (closure_keeps_get id) passed adds_keepInstance hands_keepInstance
  | release store id keep => exact absurd rfl (careful.noRelease store id keep)
  | create ref domain =>
      have spares := intact.sound.spares_create onlyOdd_missing.sparesTables ref domain
      exact intact.tended_of_goesOn goesOn spares
  | keptWrite inst view field value =>
      apply intact.tended_of_goesOn goesOn
      exact intact.sound.spares_keptWrite onlyOdd_missing.sparesTables inst view field value
  | attach table store options =>
      exact intact.tended_of_goesOn goesOn (spares_attach table store options)
  | reference dispatcher id staticType =>
      apply intact.tended_dispatchOn dispatcher (·.reference id staticType) [.object id] _ _
        adds_keepReference hands_keepReference
      · intro through home decls _ flat
        exact Dispatcher.keeps_reference (closure_respected _) through.options id staticType
      · intro through home found
        exact careful.passed (subject_of_found found id)
  | exactReference dispatcher id =>
      apply intact.tended_dispatchOn dispatcher (·.exactReference id) [.object id] _ _
        adds_keepReference hands_keepReference
      · intro through home decls _ flat
        exact Dispatcher.keeps_exactReference (closure_respected _) through.options id
      · intro through home found
        exact careful.passed (subject_of_found found id)
  | dispatcherAllocate dispatcher cls domain =>
      apply intact.tended_answerThrough dispatcher (·.allocate cls domain) [] _ nofun
        fun _ _ isValue => isValue
      intro through home decls _ flat
      exact Discipline.keeps_allocateNamed (closure_respected _) cls domain
  | dispatcherWrite dispatcher id field value =>
      have included : ∀ _ : Unit, Command.Answer.done.values ⊆ [] := fun _ => List.nil_subset _
      apply intact.tended_answerThrough dispatcher (·.write id field value)
        [.object id, value] _ _ included
      · intro through home decls _ flat
        exact Discipline.keeps_write (closure_respected _) id field value
      · intro through home found
        exact careful.passed (subject_of_found found id)
  | invoke dispatcher handle signature args =>
      apply intact.tended_withReply (spares_held session.references handle)
      intro reference isReference
      apply intact.tended_invoke (careful.plain dispatcher · · rfl) signature
      intro through home found
      exact careful.passed (subject_of_reference isReference found)
  | call dispatcher handle method args =>
      apply intact.tended_withReply (spares_held session.references handle)
      intro reference isReference
      apply intact.tended_invoke (careful.plain dispatcher · · rfl) ⟨method, args.length⟩
      intro through home found
      exact careful.passed (subject_of_reference isReference found)
  | send dispatcher id method args =>
      apply intact.tended_answerThrough dispatcher (·.send id method args)
        (.object id :: args) _ _ fun _ _ isValue => isValue
      · intro through home decls found flat
        have plain := careful.plain dispatcher through home rfl found
        exact Dispatcher.keeps_send (closure_respected _) flat plain through.options id method args
      · intro through home found
        exact careful.passed (subject_of_found found id)

/-- One careful command. -/
theorem Intact.perform {command : Command} (careful : session.Careful received command) :
    (session.perform command).session.Intact (received ++ objectsOf (session.storeOf command)
      ((session.perform command).reply.values Command.Answer.values)) where
  sound := (intact.sound.evolves_perform command).sound
  closed := (intact.tended_perform careful).closed
  live handle id isReceived := by
    rw [List.mem_append, mem_objectsOf_iff] at isReceived
    rcases isReceived with before | ⟨here, isObject⟩
    · obtain ⟨store, isStore, inst, found⟩ := intact.live handle id before
      obtain ⟨now, isNow, evolves⟩ :=
        (intact.sound.evolves_perform command).stores handle store isStore
      have notReleased : ¬ command.Releases handle id := by
        intro ⟨keep, isRelease⟩
        exact careful.noRelease handle id keep isRelease
      obtain ⟨later, isLater, _⟩ := evolves.kept id inst found notReleased
      exact ⟨now, isNow, later, isLater⟩
    · exact (intact.tended_perform careful).live handle id here isObject

end Commands

section Queries
variable {session : Session} {received : Received} (intact : session.Intact received)
  {query : Query}
include intact

theorem Intact.spares_ask (careful : ∀ named, session.querySubject query = some named →
    named ∈ received) : (session.ask query).Spares Failure.Missing := by
  apply intact.sound.spares_ask onlyOdd_missing query (.inr not_missing_breach)
  intro handle id isSubject store isStore _
  exact intact.live_of_held (careful (handle, id) isSubject) isStore

/-- The objects that a query gives are live. -/
theorem Intact.live_of_answer {handle : Handle} {id : InstanceNo}
    (isHome : session.queryStore query = some handle)
    (isObject : .object id ∈ (session.ask query).values Query.Answer.values) :
    ∃ store, held session.stores handle = .ok store ∧ store.Live id := by
  obtain ⟨answer, run, isObject⟩ : ∃ answer, session.ask query = .ok answer ∧
      .object id ∈ answer.values := by
    cases run : session.ask query with
    | ok answer =>
        rw [run] at isObject
        exact ⟨answer, rfl, isObject⟩
    | error refusal =>
        rw [run] at isObject
        cases isObject
  cases query with
  | read store table target field =>
      cases isHome
      obtain ⟨instances, isStore, run⟩ := exists_of_bind_eq_ok run
      obtain ⟨classes, _, run⟩ := exists_of_bind_eq_ok run
      obtain ⟨content, read, run⟩ := exists_of_bind_eq_ok run
      cases run
      rw [← List.mem_singleton.mp isObject] at read
      exact ⟨instances, isStore, (intact.closed _ _ isStore).read (Reply.eq_ok_of_ofOutcome read)⟩
  | readDeclared store table target declaring field =>
      cases isHome
      obtain ⟨instances, isStore, run⟩ := exists_of_bind_eq_ok run
      obtain ⟨classes, _, run⟩ := exists_of_bind_eq_ok run
      obtain ⟨content, read, run⟩ := exists_of_bind_eq_ok run
      cases run
      rw [← List.mem_singleton.mp isObject] at read
      exact ⟨instances, isStore,
        (intact.closed _ _ isStore).readDeclared (Reply.eq_ok_of_ofOutcome read)⟩
  | snapshot store target =>
      cases isHome
      obtain ⟨instances, isStore, run⟩ := exists_of_bind_eq_ok run
      obtain ⟨inst, found, run⟩ := exists_of_bind_eq_ok run
      cases run
      have isLive := (instances.get_eq_ok_iff target inst).mp (Reply.eq_ok_of_ofOutcome found)
      exact ⟨instances, isStore, intact.closed _ _ isStore target inst id isLive isObject⟩
  | storeUpTo store last =>
      cases isHome
      obtain ⟨instances, isStore, run⟩ := exists_of_bind_eq_ok run
      cases run
      refine ⟨instances, isStore, ?_⟩
      obtain ⟨⟨number, inst⟩, listed, isHeld⟩ := List.mem_flatMap.mp isObject
      have isLive := Store.find?_of_mem_upTo listed
      rcases List.mem_cons.mp isHeld with isNumber | inSlots
      · rw [Value.object.inj isNumber]
        exact ⟨inst, isLive⟩
      · exact intact.closed _ _ isStore number inst id isLive inSlots
  | dispatcherRead dispatcher target field =>
      obtain ⟨content, read, run⟩ := exists_of_bind_eq_ok run
      cases run
      rw [← List.mem_singleton.mp isObject] at read
      obtain ⟨⟨through, home⟩, found, ran⟩ := exists_of_bind_eq_ok read
      obtain ⟨instances, isStore, result⟩ := exists_of_bind_eq_ok ran
      cases (storeOf_of_found found).symm.trans isHome
      exact ⟨instances, isStore, (intact.closed _ _ isStore).read (Reply.eq_ok_of_ofOutcome result)⟩
  | _ => cases isHome

/-- One careful query. -/
theorem Intact.ask : session.Intact (received ++ objectsOf (session.queryStore query)
    ((session.ask query).values Query.Answer.values)) where
  sound := intact.sound
  closed := intact.closed
  live handle id isReceived := by
    rw [List.mem_append, mem_objectsOf_iff] at isReceived
    rcases isReceived with before | ⟨here, isObject⟩
    · exact intact.live handle id before
    · exact intact.live_of_answer here isObject

end Queries

theorem CarefulRun.intact {session : Session} {received : Received}
    (run : CarefulRun session received) : session.Intact received := by
  induction run with
  | start => exact intact_empty
  | perform before careful ih => exact ih.perform careful
  | ask before careful ih => exact ih.ask

/-- Objects do not dangle unless something is released.  On a closed store a call with a live
receiver and live objects as arguments misses no instance, leaves the store closed, whether it
succeeds or fails, and returns no dead object; an allocation and a write of no dead object
leave it closed as well.  So a host that is careful all the time never misses an instance. -/
theorem careful_never_misses :
    (∀ (hierarchy : Hierarchy), hierarchy.Sealed → hierarchy.Plain →
      ∀ (store : Store), store.Closed → ∀ options (reference : Reference) signature args,
        store.Live reference.target → (∀ id, .object id ∈ args → store.Live id) →
        let effect := Dispatcher.invoke ⟨hierarchy, options⟩ reference signature args store
        (∀ id, effect.result ≠ refuse (.unknownInstance id)) ∧ effect.store.Closed ∧
          ∀ id, effect.result = .ok (.object id) → effect.store.Live id) ∧
    (∀ (store : Store), store.Closed → ∀ cls domain, (store.allocate cls domain).Closed) ∧
    (∀ (store : Store), store.Closed → ∀ classes target field value changed,
      (∀ id, value = .object id → store.Live id) →
        store.write classes target field value = .ok changed → changed.Closed) ∧
    (∀ session received, CarefulRun session received →
      (∀ command, session.Careful received command → ∀ id,
        (session.perform command).reply ≠ .error (.failed (.fault (.unknownInstance id)))) ∧
      (∀ query, (∀ named, session.querySubject query = some named → named ∈ received) → ∀ id,
          session.ask query ≠ .error (.failed (.fault (.unknownInstance id))))) := by
  refine ⟨?_, ?_, ?_, ?_⟩
  · intro hierarchy isSealed plain store closed options reference signature args receiver objects
    obtain ⟨_, flat⟩ := isSealed.exists_flat
    have live : ∀ id, .object id ∈ Value.object reference.target :: args → store.Live id := by
      intro id isGiven
      rcases List.mem_cons.mp isGiven with isReceiver | inArgs
      · rw [Value.object.inj isReceiver]
        exact receiver
      · exact objects id inArgs
    have kept := Dispatcher.keeps_call (closure_respected hierarchy.classes) flat plain options
      reference signature args store closed live
    refine ⟨closure_unnumbered kept, kept.valid, ?_⟩
    intro id returned
    exact kept.gives _ returned id List.mem_cons_self
  · intro store closed cls domain
    exact closed.allocate cls domain
  · intro store closed classes target field value changed valueLive run
    exact closed.write valueLive run
  · intro session received run
    refine ⟨?_, ?_⟩
    · intro command careful id missed
      exact (run.intact.tended_perform careful).spares _ missed ⟨id, rfl⟩
    · intro query careful id missed
      exact run.intact.spares_ask careful _ missed ⟨id, rfl⟩

/-- A call that fails midway misses no instance, be it of a host that is careful or on a
closed store of any other origin. -/
theorem grow_misses_nothing :
    let session := empty.after [.build sampleDecls, .openStore, .attach 1 1 {},
      .dispatcherAllocate 1 "Node" .managed]
    sampleStore.Closed ∧ (∀ id, (Dispatcher.invoke ⟨sampleHierarchy, {}⟩ ⟨1, ⟨1, 0⟩⟩ ⟨"grow", 0⟩ []
        sampleStore).result ≠ refuse (.unknownInstance id)) ∧
      CarefulRun session [(1, 1)] ∧ session.Careful [(1, 1)] (.send 1 1 "grow" []) ∧
      ∀ id, (session.perform (.send 1 1 "grow" [])).reply ≠
        .error (.failed (.fault (.unknownInstance id))) := by
  intro session
  obtain ⟨calls, _, _, runs⟩ := careful_never_misses
  have closed : sampleStore.Closed := by
    rintro (_ | _ | _ | _ | owner) inst id ⟨⟩ inSlots
    · simp at inSlots
    · obtain rfl : id = 3 := by simpa using inSlots
      exact ⟨_, rfl⟩
    · obtain rfl : id = 2 := by simpa using inSlots
      exact ⟨_, rfl⟩
  have called := calls sampleHierarchy sampleHierarchy_sealed sampleHierarchy_plain sampleStore
    closed {} ⟨1, ⟨1, 0⟩⟩ ⟨"grow", 0⟩ [] ⟨_, rfl⟩ nofun
  have built : CarefulRun (empty.after [.build sampleDecls]) [] :=
    CarefulRun.start.perform (careful_of_idle nofun rfl rfl rfl)
  have opened : CarefulRun (empty.after [.build sampleDecls, .openStore]) [] :=
    built.perform (careful_of_idle nofun rfl rfl rfl)
  have attached : CarefulRun (empty.after [.build sampleDecls, .openStore, .attach 1 1 {}]) [] :=
    opened.perform (careful_of_idle nofun rfl rfl rfl)
  have allocated : CarefulRun session [(1, 1)] :=
    attached.perform (careful_of_idle nofun rfl rfl rfl)
  have sends : session.Careful [(1, 1)] (.send 1 1 "grow" []) := by
    refine ⟨nofun, ?_, nofun, ?_⟩
    · rintro named ⟨⟩
      exact List.mem_cons_self
    · rintro dispatcher through home ⟨⟩ ⟨⟩
      exact sampleHierarchy_plain
  exact ⟨closed, called.1, allocated, sends, (runs session _ allocated).1 _ sends⟩

end Session

end Lineage
