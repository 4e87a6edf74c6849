import Lineage.Proofs.Call.Entry
import Lineage.Proofs.Session.Change

/-!
# Failures of requests

A host may hand whatever it got from one table, store or dispatcher to any other: classes
of other tables, references that another dispatcher made, numbers of other stores.  What a
request can fail with then is said for failures of several kinds alike, by naming those that
are bad (`Reply.Spares`).  Queries spare them if the instance they look at is there and, where
a breach is bad, if they are checked (`Sound.spares_query`).  Commands spare them if the calls
do that they make (`Calls`, `Sound.spares_perform`), definitions apart.
-/

set_option autoImplicit false

namespace Lineage

/-- All queries but those that ask a table without a check: for a class by its identity,
for the chain above it, for the relation of two classes, for its dispatch table. -/
def Query.isChecked : Query → Bool
  | .ownClassName .. | .ancestors .. | .isSubclassOf .. | .dispatchTable .. => false
  | _ => true

/-- The command defines classes. -/
def Command.defines : Command → Bool
  | .build .. | .define .. => true
  | _ => false

/-! ## Replies -/

/-- The reply is an answer, or a refusal whose failure, if there is one, is not bad. -/
def Reply.Spares {α : Type} (bad : Failure → Prop) (reply : Reply α) : Prop :=
  ∀ failure, reply = .error (.failed failure) → ¬ bad failure

section Replies
variable {α β : Type} {bad : Failure → Prop}

theorem spares_answer (value : α) : Reply.Spares bad (.ok value) := nofun

theorem spares_dangling : Reply.Spares bad (.error .dangling : Reply α) := nofun

theorem Reply.Spares.error {refusal : Refusal}
    (spares : Reply.Spares bad (.error refusal : Reply α)) :
    Reply.Spares bad (.error refusal : Reply β) := by
  intro failure same
  cases same
  exact spares failure rfl

theorem Reply.Spares.bind {reply : Reply α} {next : α → Reply β} (first : reply.Spares bad)
    (rest : ∀ value, reply = .ok value → (next value).Spares bad) :
    Reply.Spares bad (reply >>= next) := by
  cases reply with
  | ok value => exact rest value rfl
  | error refusal => exact first.error

/-- An answer that is only put into another form. -/
theorem Reply.Spares.pure {reply : Reply α} (first : reply.Spares bad) (answer : α → β) :
    Reply.Spares bad (do return answer (← reply)) :=
  first.bind fun value _ => spares_answer (answer value)

theorem Spares.ofOutcome {outcome : Outcome α} (spares : Lineage.Spares bad outcome) :
    (Reply.ofOutcome outcome).Spares bad := by
  cases outcome with
  | ok value => exact spares_answer value
  | error failure =>
      intro other same
      cases same
      exact spares failure rfl

theorem spares_mapM {next : α → Reply β} (values : List α)
    (each : ∀ value ∈ values, (next value).Spares bad) : Reply.Spares bad (values.mapM next) := by
  induction values with
  | nil => exact spares_answer []
  | cons value rest ih =>
      rw [List.mapM_cons]
      apply (each value List.mem_cons_self).bind
      intro first _
      apply (ih fun other inRest => each other (List.mem_cons_of_mem value inRest)).bind
      intro others _
      exact spares_answer _

theorem Tabular.ofOutcome (mild : SparesTables bad) {outcome : Outcome α}
    (tabular : Tabular outcome) : (Reply.ofOutcome outcome).Spares bad :=
  (tabular.spares mild).ofOutcome

theorem Faultless.ofOutcome (mild : ¬ bad .breach) {outcome : Outcome α}
    (faultless : Faultless outcome) : (Reply.ofOutcome outcome).Spares bad :=
  (Spares.of_faultless mild faultless).ofOutcome

end Replies

/-- Every class of a closed table has its dispatch table. -/
theorem Hierarchy.Flat.spares_tableAt {bad : Failure → Prop} {hierarchy : Hierarchy}
    {decls : List ClassDecl} (flat : hierarchy.Flat decls) {cls : Class}
    (listed : cls ∈ hierarchy.classes.classes.toList) : Spares bad (hierarchy.tableAt cls) := by
  obtain ⟨index, stored⟩ := List.mem_iff_getElem?.mp listed
  rw [Array.getElem?_toList] at stored
  obtain ⟨decl, parent, _, placed⟩ := flat.holds.placed index cls stored
  have found : hierarchy.classes.find? cls.id = some cls := by
    rw [placed.id_eq, ClassTable.find?_eq_some_iff]
    exact ⟨rfl, stored⟩
  obtain ⟨chain, chained⟩ := flat.holds.exists_chain found
  obtain ⟨table, isTable, _⟩ := flat.tables cls.id cls chain found chained
  rw [tableAt, isTable]
  exact spares_ok table

/-- A call through the own class of an instance fails as the call does, or for want of that
class. -/
theorem Dispatcher.spares_send {bad : Failure → Prop} {dispatcher : Dispatcher}
    {decls : List ClassDecl} (flat : dispatcher.hierarchy.Flat decls) {target : InstanceNo}
    {method : String} {args : List Value} {store : Store}
    (refers : Spares bad (dispatcher.exactReference target store).result)
    (calls : ∀ reference, (dispatcher.exactReference target store).result = .ok reference →
      Spares bad (dispatcher.invoke reference ⟨method, args.length⟩ args store).result) :
    Spares bad (dispatcher.send target method args store).result := by
  obtain ⟨cause, _, unknown⟩ | ⟨_, exact, _, _, _, known⟩ := flat.classOf_cases target store
  · have refused : dispatcher.exactReference target store = ⟨refuse cause, store, []⟩ :=
      Action.run_bind_of_error (unknown dispatcher.options) _
    rw [refused] at refers
    rw [send, Action.run_bind_of_error refused]
    exact refers.error
  · have referred : dispatcher.exactReference target store =
        ⟨.ok ⟨target, exact.id⟩, store, []⟩ := Action.run_bind_of_ok (known dispatcher.options) _
    rw [send, Action.run_bind_of_ok referred]
    exact calls _ (by rw [referred])

namespace Session

section Lookups
variable {session : Session} {α β : Type} {bad : Failure → Prop}

theorem spares_held (things : Array α) (handle : Handle) : (held things handle).Spares bad := by
  unfold held
  split
  · exact spares_dangling
  · split
    · exact spares_answer _
    · exact spares_dangling

theorem spares_classes (session : Session) (handle : Handle) :
    (session.classes handle).Spares bad := by
  apply (spares_held session.tables handle).bind
  intro state _
  split
  · exact spares_answer _
  · exact spares_answer _
  · exact spares_dangling

theorem spares_openedTable (session : Session) (handle : Handle) :
    (session.openedTable handle).Spares bad := by
  apply (spares_held session.tables handle).bind
  intro state _
  split
  · exact spares_answer _
  · exact spares_dangling

theorem spares_hierarchy (session : Session) (handle : Handle) :
    (session.hierarchy handle).Spares bad := by
  apply (spares_held session.tables handle).bind
  intro state _
  split
  · exact spares_answer _
  · exact spares_dangling

theorem spares_dispatcher (session : Session) (handle : Handle) :
    (session.dispatcher handle).Spares bad := by
  apply (spares_held session.dispatchers handle).bind
  intro attachment _
  apply (session.spares_hierarchy attachment.table).bind
  intro hierarchy _
  exact spares_answer _

variable (sound : session.Sound)
include sound

theorem Sound.spares_findClass (mild : SparesTables bad) (ref : ClassRef) :
    (session.findClass ref).Spares bad := by
  apply (session.spares_classes ref.table).bind
  intro classes isTable
  obtain ⟨decls, holds⟩ := sound.exists_holds isTable
  exact (classed_lookup holds ref.name).tabular.ofOutcome mild

theorem Sound.exists_flat {handle : Handle} {hierarchy : Hierarchy}
    (isClosed : session.hierarchy handle = .ok hierarchy) : ∃ decls, hierarchy.Flat decls :=
  sound handle _ ((session.hierarchy_eq_ok_iff handle hierarchy).mp isClosed)

theorem Sound.exists_flat_of_dispatcher {handle store : Handle} {dispatcher : Dispatcher}
    (found : session.dispatcher handle = .ok (dispatcher, store)) :
    ∃ decls, dispatcher.hierarchy.Flat decls := by
  obtain ⟨table, _, isClosed⟩ := (session.dispatcher_eq_ok_iff handle dispatcher store).mp found
  exact sound table _ isClosed

theorem Sound.spares_findDispatch (mild : SparesTables bad) (ref : ClassRef) :
    (session.findDispatch ref).Spares bad := by
  apply (sound.spares_findClass mild ref).bind
  intro cls _
  apply (session.spares_hierarchy ref.table).bind
  intro hierarchy isClosed
  obtain ⟨decls, flat⟩ := sound.exists_flat isClosed
  exact (flat.classed_tableOf cls.id).tabular.ofOutcome mild

end Lookups

/-! ## Queries -/

/-- The instance is there, if it is bad to miss it. -/
def Serves (session : Session) (bad : Failure → Prop) (handle : Handle) (id : InstanceNo) : Prop :=
  ∀ store, held session.stores handle = .ok store → store.Serves bad id

section Queries
variable {session : Session} {bad : Failure → Prop} {α : Type}

/-- A query through a dispatcher spares what its action spares. -/
theorem spares_outcomeThrough (dispatcher : Handle) (id : InstanceNo)
    (serves : ∀ handle target, (do
      let found ← (session.dispatcher dispatcher).toOption
      return (found.2, id)) = some (handle, target) → session.Serves bad handle target)
    {action : Dispatcher → Action α}
    (spares : ∀ through (store : Store), store.Serves bad id →
      Lineage.Spares bad (action through store).result) :
    (session.outcomeThrough dispatcher action).Spares bad := by
  apply (session.spares_dispatcher dispatcher).bind
  intro ⟨through, home⟩ found
  apply (spares_held session.stores home).bind
  intro store isStore
  rw [found] at serves
  exact (spares through store (serves home id rfl store isStore)).ofOutcome

/-- A query fails with what a table lacks, with a class that is no view of the instance, or
with what `bad` may not be if it is to be spared. -/
theorem Sound.spares_query (sound : session.Sound) (use : SparesUse bad) (query : Query)
    (checked : query.isChecked = true ∨ ¬ bad .breach)
    (serves : ∀ handle id, session.querySubject query = some (handle, id) →
      session.Serves bad handle id) : (session.ask query).Spares bad := by
  cases query with
  | size table => exact (session.spares_classes table).pure _
  | names table => exact (session.spares_classes table).pure _
  | idOf table name =>
      apply (session.spares_classes table).bind
      intro classes _
      exact ((classed_idOf classes name).tabular.ofOutcome use.tables).pure _
  | descriptor table name =>
      apply (session.spares_classes table).bind
      intro classes isTable
      obtain ⟨decls, holds⟩ := sound.exists_holds isTable
      exact ((classed_lookup holds name).tabular.ofOutcome use.tables).pure _
  | owns table cls =>
      apply (sound.spares_findClass use.tables cls).bind
      intro found _
      exact (session.spares_classes table).pure _
  | className table cls =>
      apply (sound.spares_findClass use.tables cls).bind
      intro found _
      apply (session.spares_classes table).bind
      intro classes _
      exact ((classed_get classes found.id).tabular.ofOutcome use.tables).pure _
  | ownClassName table cls =>
      have mild := checked.resolve_left nofun
      apply (sound.spares_findClass use.tables cls).bind
      intro found _
      apply (session.spares_classes table).bind
      intro classes _
      exact ((faultless_classAt classes found.id).ofOutcome mild).pure _
  | idText cls => exact (sound.spares_findClass use.tables cls).pure _
  | ancestors table cls =>
      have mild := checked.resolve_left nofun
      apply (sound.spares_findClass use.tables cls).bind
      intro found _
      apply (session.spares_classes table).bind
      intro classes _
      exact ((faultless_climb classes found.id classes.size).ofOutcome mild).pure _
  | isSubclassOf table cls ancestor =>
      have mild := checked.resolve_left nofun
      apply (sound.spares_findClass use.tables cls).bind
      intro found _
      apply (sound.spares_findClass use.tables ancestor).bind
      intro above _
      apply (session.spares_classes table).bind
      intro classes _
      exact ((faultless_isSubclassOf classes found.id above.id).ofOutcome mild).pure _
  | slotOf cls field => exact (sound.spares_findClass use.tables cls).pure _
  | declares cls signature => exact (sound.spares_findClass use.tables cls).pure _
  | tableOf table cls =>
      apply (sound.spares_findClass use.tables cls).bind
      intro found _
      apply (session.spares_hierarchy table).bind
      intro hierarchy isClosed
      obtain ⟨decls, flat⟩ := sound.exists_flat isClosed
      exact ((flat.classed_tableOf found.id).tabular.ofOutcome use.tables).pure _
  | dispatchTable table cls =>
      have mild := checked.resolve_left nofun
      apply (sound.spares_findClass use.tables cls).bind
      intro found _
      apply (session.spares_hierarchy table).bind
      intro hierarchy _
      exact ((faultless_dispatchTable found.id hierarchy).ofOutcome mild).pure _
  | resolve table cls signature =>
      apply (sound.spares_findClass use.tables cls).bind
      intro found _
      apply (session.spares_hierarchy table).bind
      intro hierarchy isClosed
      obtain ⟨decls, flat⟩ := sound.exists_flat isClosed
      exact ((flat.classed_resolve found.id signature).tabular.ofOutcome use.tables).pure _
  | tableLookup table cls signature =>
      apply (sound.spares_findClass use.tables cls).bind
      intro found _
      apply (session.spares_hierarchy table).bind
      intro hierarchy isClosed
      obtain ⟨decls, flat⟩ := sound.exists_flat isClosed
      exact ((flat.classed_tableOf found.id).tabular.ofOutcome use.tables).pure _
  | deriveTable cls parent =>
      cases parent with
      | none => exact (sound.spares_findClass use.tables cls).pure _
      | some ref =>
          apply (sound.spares_findDispatch use.tables ref).bind
          intro inherited _
          exact (sound.spares_findClass use.tables cls).pure _
  | dump table =>
      apply (session.spares_hierarchy table).bind
      intro hierarchy isClosed
      obtain ⟨decls, flat⟩ := sound.exists_flat isClosed
      apply Reply.Spares.pure
      apply spares_mapM
      intro cls listed
      exact ((flat.spares_tableAt listed).ofOutcome).pure _
  | classOf store id =>
      apply (spares_held session.stores store).bind
      intro instances isStore
      exact ((spares_get (serves store id rfl instances isStore)).map _).ofOutcome.pure _
  | domainOf store id =>
      apply (spares_held session.stores store).bind
      intro instances isStore
      exact ((spares_get (serves store id rfl instances isStore)).map _).ofOutcome.pure _
  | contains store id => exact (spares_held session.stores store).pure _
  | storeSize store => exact (spares_held session.stores store).pure _
  | read store table id field =>
      apply (spares_held session.stores store).bind
      intro instances isStore
      apply (session.spares_classes table).bind
      intro classes _
      have present := serves store id rfl instances isStore
      exact (spares_read use.tables present classes field).ofOutcome.pure _
  | readDeclared store table id declaring field =>
      apply (spares_held session.stores store).bind
      intro instances isStore
      apply (session.spares_classes table).bind
      intro classes isTable
      obtain ⟨decls, holds⟩ := sound.exists_holds isTable
      have present := serves store id rfl instances isStore
      exact (spares_readDeclared use present holds declaring field).ofOutcome.pure _
  | snapshot store id =>
      apply (spares_held session.stores store).bind
      intro instances isStore
      exact (spares_get (serves store id rfl instances isStore)).ofOutcome.pure _
  | storeUpTo store last => exact (spares_held session.stores store).pure _
  | dispatcherClassOf dispatcher id =>
      apply Reply.Spares.pure
      apply spares_outcomeThrough dispatcher id serves
      intro through store present
      exact spares_classOf use.tables present through
  | dispatcherRead dispatcher id field =>
      apply Reply.Spares.pure
      apply spares_outcomeThrough dispatcher id serves
      intro through store present
      exact spares_read use.tables present through.hierarchy.classes field
  | kept inst => exact (spares_held session.instances inst).pure _
  | keptEqual left right =>
      apply (spares_held session.instances left).bind
      intro first _
      exact (spares_held session.instances right).pure _
  | keptRead inst view field =>
      apply (sound.spares_findClass use.tables view).bind
      intro found _
      apply (spares_held session.instances inst).bind
      intro kept _
      exact ((tabular_instance_read kept found field).ofOutcome use.tables).pure _

theorem Sound.spares_ask (sound : session.Sound) (odd : OnlyOdd bad) (query : Query)
    (checked : query.isChecked = true ∨ ¬ bad .breach)
    (serves : ∀ handle id, session.querySubject query = some (handle, id) →
      session.Serves bad handle id) : (session.ask query).Spares bad :=
  sound.spares_query odd.sparesUse query checked serves

end Queries

/-! ## Commands -/

/-- What the command calls, through a dispatcher of the session and on its store. -/
inductive Calls (session : Session) :
    Command → Dispatcher → Reference → Signature → List Value → Store → Prop where
  | invoke {handle kept home : Handle} {dispatcher : Dispatcher} {store : Store}
      {reference : Reference} {signature : Signature} {args : List Value}
      (found : session.dispatcher handle = .ok (dispatcher, home))
      (isStore : held session.stores home = .ok store)
      (isReference : held session.references kept = .ok reference) :
      Calls session (.invoke handle kept signature args) dispatcher reference signature args store
  | call {handle kept home : Handle} {dispatcher : Dispatcher} {store : Store}
      {reference : Reference} {method : String} {args : List Value}
      (found : session.dispatcher handle = .ok (dispatcher, home))
      (isStore : held session.stores home = .ok store)
      (isReference : held session.references kept = .ok reference) :
      Calls session (.call handle kept method args) dispatcher reference ⟨method, args.length⟩ args
        store
  | send {handle home : Handle} {id : InstanceNo} {dispatcher : Dispatcher} {store : Store}
      {reference : Reference} {method : String} {args : List Value}
      (found : session.dispatcher handle = .ok (dispatcher, home))
      (isStore : held session.stores home = .ok store)
      (isExact : (dispatcher.exactReference id store).result = .ok reference) :
      Calls session (.send handle id method args) dispatcher reference ⟨method, args.length⟩ args
        store

section Commands
variable {session : Session} {bad : Failure → Prop} {α : Type}

theorem spares_withReply {reply : Reply α} (first : reply.Spares bad) {next : α → Step}
    (rest : ∀ value, reply = .ok value → (next value).reply.Spares bad) :
    (session.withReply reply next).reply.Spares bad := by
  cases reply with
  | ok value => exact rest value rfl
  | error refusal => exact first.error

theorem spares_build (mild : SparesDefinitions bad) (session : Session) (decls : List ClassDecl) :
    (session.build decls).reply.Spares bad := by
  have ends := (definitional_load (session.tables.size + 1) decls).of_only mild
  unfold build
  dsimp only
  generalize Hierarchy.load (session.tables.size + 1) decls = loaded at ends
  obtain ⟨classes, failure | hierarchy⟩ := loaded
  · exact ends.ofOutcome.error
  · exact spares_answer _

theorem spares_attach (table store : Handle) (options : Options) :
    (session.perform (.attach table store options)).reply.Spares bad := by
  apply spares_withReply (session.spares_hierarchy table)
  intro hierarchy _
  apply spares_withReply (spares_held session.stores store)
  intro instances _
  exact spares_answer _

variable (sound : session.Sound)
include sound

theorem Sound.spares_define (mild : SparesDefinitions bad) (table : Handle) (decl : ClassDecl) :
    (session.define table decl).reply.Spares bad := by
  apply spares_withReply (session.spares_openedTable table)
  intro classes isOpen
  obtain ⟨decls, holds⟩ := sound table _ ((session.openedTable_eq_ok_iff _ _).mp isOpen)
  have ends := (definitional_define holds decl).of_only mild
  cases run : classes.define decl with
  | ok made => exact spares_answer _
  | error failure =>
      rw [run] at ends
      exact ends.ofOutcome.error

theorem Sound.spares_closeTable (table : Handle) :
    (session.closeTable table).reply.Spares bad := by
  apply spares_withReply (session.spares_openedTable table)
  intro classes isOpen
  obtain ⟨decls, holds⟩ := sound table _ ((session.openedTable_eq_ok_iff _ _).mp isOpen)
  apply spares_withReply (spares_ofTable holds).ofOutcome
  intro hierarchy _
  exact spares_answer _

section Tables
variable (mild : SparesTables bad)
include mild

theorem Sound.spares_create (ref : ClassRef) (domain : Domain) :
    (session.perform (.create ref domain)).reply.Spares bad := by
  apply spares_withReply (sound.spares_findClass mild ref)
  intro cls _
  exact spares_answer _

theorem Sound.spares_keptWrite (inst : Handle) (view : ClassRef) (field : String)
    (value : Value) : (session.perform (.keptWrite inst view field value)).reply.Spares bad := by
  apply spares_withReply (sound.spares_findClass mild view)
  intro cls _
  apply spares_withReply (spares_held session.instances inst)
  intro kept _
  apply spares_withReply ((tabular_instance_write kept cls field value).ofOutcome mild)
  intro changed _
  exact spares_answer _

end Tables

omit sound in
/-- What is done with the value of an action goes well. -/
theorem spares_runOn (store : Handle) {action : Action α}
    (spares : ∀ instances, held session.stores store = .ok instances →
      Lineage.Spares bad (action instances).result)
    {next : Session → α → List Event → Step}
    (rest : ∀ after value events, (next after value events).reply.Spares bad) :
    (session.runOn store action next).reply.Spares bad := by
  apply spares_withReply (spares_held session.stores store)
  intro instances isStore
  have ends := spares instances isStore
  dsimp only
  cases result : (action instances).result with
  | ok value => exact rest _ value _
  | error failure =>
      rw [result] at ends
      exact ends.ofOutcome.error

omit sound in
theorem spares_keepInstance (session : Session) (inst : Instance) (events : List Event) :
    (session.keepInstance inst events).reply.Spares bad :=
  spares_answer _

omit sound in
theorem spares_keepReference (session : Session) (reference : Reference)
    (events : List Event) : (session.keepReference reference events).reply.Spares bad :=
  spares_answer _

theorem Sound.spares_dispatchOn (handle : Handle) {action : Dispatcher → Action α}
    (spares : ∀ (dispatcher : Dispatcher) home store decls,
      session.dispatcher handle = .ok (dispatcher, home) →
      held session.stores home = .ok store → dispatcher.hierarchy.Flat decls →
        Lineage.Spares bad (action dispatcher store).result)
    {next : Session → α → List Event → Step}
    (rest : ∀ after value events, (next after value events).reply.Spares bad) :
    (session.dispatchOn handle action next).reply.Spares bad := by
  apply spares_withReply (session.spares_dispatcher handle)
  intro ⟨dispatcher, home⟩ found
  obtain ⟨decls, flat⟩ := sound.exists_flat_of_dispatcher found
  apply spares_runOn home _ rest
  intro store isStore
  exact spares dispatcher home store decls found isStore flat

theorem Sound.spares_answerThrough (handle : Handle) {action : Dispatcher → Action α}
    (spares : ∀ (dispatcher : Dispatcher) home store decls,
      session.dispatcher handle = .ok (dispatcher, home) →
      held session.stores home = .ok store → dispatcher.hierarchy.Flat decls →
        Lineage.Spares bad (action dispatcher store).result)
    (answer : α → Command.Answer) :
    (session.answerThrough handle action answer).reply.Spares bad :=
  sound.spares_dispatchOn handle spares fun _ _ _ => spares_answer _

theorem Sound.exists_flat_of_calls {command : Command} {dispatcher : Dispatcher}
    {reference : Reference} {signature : Signature} {args : List Value} {store : Store}
    (calls : session.Calls command dispatcher reference signature args store) :
    ∃ decls, dispatcher.hierarchy.Flat decls := by
  cases calls with
  | invoke found | call found | send found => exact sound.exists_flat_of_dispatcher found

/-- A command that defines nothing fails with what a table lacks, with what is no view of an
instance, with an instance that is not there, or as what it calls does. -/
theorem Sound.spares_perform (use : SparesUse bad) (missing : SparesMissing bad)
    (command : Command) (noDefinition : command.defines = false)
    (calls : ∀ dispatcher reference signature args store,
      session.Calls command dispatcher reference signature args store →
        Lineage.Spares bad (dispatcher.invoke reference signature args store).result) :
    (session.perform command).reply.Spares bad := by
  cases command with
  | build decls => cases noDefinition
  | openTable => exact spares_answer _
  | define table decl => cases noDefinition
  | closeTable table => exact sound.spares_closeTable table
  | openStore => exact spares_answer _
  | allocate store ref domain =>
      apply spares_withReply (sound.spares_findClass use.tables ref)
      intro cls _
      exact spares_runOn store (fun instances _ => Action.spares_allocate cls domain instances)
        fun _ _ _ => spares_answer _
  | allocateNamed store table cls domain =>
      apply spares_withReply (session.spares_classes table)
      intro classes isTable
      obtain ⟨decls, holds⟩ := sound.exists_holds isTable
      exact spares_runOn store
        (fun instances _ => Action.spares_allocateNamed use.tables holds cls domain instances)
        fun _ _ _ => spares_answer _
  | write store table id field value =>
      apply spares_withReply (session.spares_classes table)
      intro classes _
      refine spares_runOn store (fun instances _ => ?_) fun _ _ _ => spares_answer _
      refine Action.spares_update (fun instances => ?_) instances
      exact spares_write use.tables (missing.serves instances id) classes field value
  | keep store id =>
      refine spares_runOn store (fun instances _ => ?_) spares_keepInstance
      exact spares_get (missing.serves instances id)
  | release store id keep =>
      have releases (instances : Store) (_ : held session.stores store = .ok instances) :=
        Action.spares_release missing id instances
      cases keep with
      | true => exact spares_runOn store releases spares_keepInstance
      | false => exact spares_runOn store releases fun _ _ _ => spares_answer _
  | create ref domain => exact sound.spares_create use.tables ref domain
  | keptWrite inst view field value => exact sound.spares_keptWrite use.tables inst view field value
  | attach table store options => exact spares_attach table store options
  | reference dispatcher id staticType =>
      apply sound.spares_dispatchOn dispatcher _ spares_keepReference
      intro through _ instances decls _ _ flat
      exact through.spares_reference missing flat use id staticType instances
  | exactReference dispatcher id =>
      apply sound.spares_dispatchOn dispatcher _ spares_keepReference
      intro through _ instances _ _ _ _
      exact through.spares_exactReference missing use.tables id instances
  | dispatcherAllocate dispatcher cls domain =>
      apply sound.spares_answerThrough dispatcher
      intro through _ instances decls _ _ flat
      exact Action.spares_allocateNamed use.tables flat.holds cls domain instances
  | dispatcherWrite dispatcher id field value =>
      apply sound.spares_answerThrough dispatcher
      intro through _ instances _ _ _ _
      exact through.spares_write missing use.tables id field value instances
  | invoke dispatcher handle signature args =>
      apply spares_withReply (spares_held session.references handle)
      intro reference isReference
      apply sound.spares_answerThrough dispatcher
      intro through home instances _ found isStore _
      exact calls _ _ _ _ _ (.invoke found isStore isReference)
  | call dispatcher handle method args =>
      apply spares_withReply (spares_held session.references handle)
      intro reference isReference
      apply sound.spares_answerThrough dispatcher
      intro through home instances _ found isStore _
      exact calls _ _ _ _ _ (.call found isStore isReference)
  | send dispatcher id method args =>
      apply sound.spares_answerThrough dispatcher
      intro through home instances decls found isStore flat
      apply Dispatcher.spares_send flat
        (through.spares_exactReference missing use.tables id instances)
      intro reference isExact
      exact calls _ _ _ _ _ (.send found isStore isExact)

end Commands

end Session

end Lineage
