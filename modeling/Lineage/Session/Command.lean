import Lineage.Hierarchy.Report
import Lineage.Session.Query

/-!
# Commands

Requests that may change a session.  A command ends with a reply, the session
after it and the events that it emitted.  A command that is refused before it
runs changes nothing; a call that fails midway keeps what it did until then.
-/

set_option autoImplicit false

namespace Lineage

/-- What a session can be told to do. -/
inductive Command where
  | build (decls : List ClassDecl)
  | openTable
  | define (table : Handle) (decl : ClassDecl)
  /-- Take no more definitions. -/
  | closeTable (table : Handle)
  | openStore
  | allocate (store : Handle) (cls : ClassRef) (domain : Domain)
  | allocateNamed (store table : Handle) (cls : String) (domain : Domain)
  | write (store table : Handle) (id : InstanceNo) (field : String) (value : Value)
  /-- Keep a copy of an instance outside of its store. -/
  | keep (store : Handle) (id : InstanceNo)
  | release (store : Handle) (id : InstanceNo) (keep : Bool)
  /-- Make an instance that is kept outside of stores from the start. -/
  | create (cls : ClassRef) (domain : Domain)
  | keptWrite (inst : Handle) (view : ClassRef) (field : String) (value : Value)
  | attach (table store : Handle) (options : Options)
  | reference (dispatcher : Handle) (id : InstanceNo) (staticType : String)
  | exactReference (dispatcher : Handle) (id : InstanceNo)
  | dispatcherAllocate (dispatcher : Handle) (cls : String) (domain : Domain)
  | dispatcherWrite (dispatcher : Handle) (id : InstanceNo) (field : String) (value : Value)
  | invoke (dispatcher reference : Handle) (signature : Signature) (args : List Value)
  | call (dispatcher reference : Handle) (method : String) (args : List Value)
  | send (dispatcher : Handle) (id : InstanceNo) (method : String) (args : List Value)

inductive Command.Answer where
  | done
  /-- A table that is open to definitions. -/
  | opened (table : Handle)
  /-- A table that was loaded, with the number of its classes. -/
  | loaded (table : Handle) (count : Nat)
  /-- The number of classes of a table that was closed. -/
  | closed (count : Nat)
  | store (store : Handle)
  | classId (id : ClassId)
  | object (id : InstanceNo)
  | value (value : Value)
  /-- An instance, and its handle if it is kept. -/
  | inst (inst : Instance) (kept : Option Handle)
  /-- A dispatcher with its options, and the counts of classes and live
  instances. -/
  | dispatcher (dispatcher : Handle) (options : Options) (classes live : Nat)
  | reference (handle : Handle) (reference : Reference)

structure Step where
  reply : Reply Command.Answer
  session : Session
  events : List Event

namespace Session

/-- A command that is refused and changes nothing. -/
def refused (session : Session) (refusal : Refusal) : Step :=
  ⟨.error refusal, session, []⟩

/-- Go on with what a reply holds, or stop with its refusal. -/
def withReply {α : Type} (session : Session) (reply : Reply α) (next : α → Step) : Step :=
  match reply with
  | .ok value => next value
  | .error refusal => session.refused refusal

/-- Keep an instance outside of stores and answer with it and its handle. -/
def keepInstance (session : Session) (inst : Instance) (events : List Event) : Step :=
  ⟨.ok (.inst inst (some (session.instances.size + 1))),
    { session with instances := session.instances.push inst }, events⟩

def keepReference (session : Session) (reference : Reference) (events : List Event) : Step :=
  ⟨.ok (.reference (session.references.size + 1) reference),
    { session with references := session.references.push reference }, events⟩

/-- Run an action on a store of the session and go on with its value. -/
def runOn {α : Type} (session : Session) (store : Handle) (action : Action α)
    (next : Session → α → List Event → Step) : Step :=
  session.withReply (held session.stores store) fun instances =>
    let effect := action instances
    let after := { session with stores := rebind session.stores store effect.store }
    match effect.result with
    | .ok value => next after value effect.events
    | .error failure => ⟨.error (.failed failure), after, effect.events⟩

def answerOn {α : Type} (session : Session) (store : Handle) (action : Action α)
    (answer : α → Command.Answer) : Step :=
  session.runOn store action fun after value events => ⟨.ok (answer value), after, events⟩

def dispatchOn {α : Type} (session : Session) (handle : Handle)
    (action : Dispatcher → Action α) (next : Session → α → List Event → Step) : Step :=
  session.withReply (session.dispatcher handle) fun (dispatcher, store) =>
    session.runOn store (action dispatcher) next

def answerThrough {α : Type} (session : Session) (handle : Handle)
    (action : Dispatcher → Action α) (answer : α → Command.Answer) : Step :=
  session.dispatchOn handle action fun after value events => ⟨.ok (answer value), after, events⟩

/-- Load a hierarchy.  The table's handle is taken even if the load fails. -/
def build (session : Session) (decls : List ClassDecl) : Step :=
  let tag := session.tables.size + 1
  let (classes, result) := Hierarchy.load tag decls
  let events := Hierarchy.loadEvents classes result
  match result with
  | .ok hierarchy =>
      ⟨.ok (.loaded tag hierarchy.classes.size),
        { session with tables := session.tables.push (.closed hierarchy) }, events⟩
  | .error failure =>
      ⟨.error (.failed failure), { session with tables := session.tables.push .failed }, events⟩

def define (session : Session) (handle : Handle) (decl : ClassDecl) : Step :=
  session.withReply (session.openedTable handle) fun classes =>
    match classes.define decl with
    | .ok (extended, cls) =>
        ⟨.ok (.classId cls.id),
          { session with tables := rebind session.tables handle (.opened extended) },
          [extended.definedEvent cls]⟩
    | .error failure => session.refused (.failed failure)

def closeTable (session : Session) (handle : Handle) : Step :=
  session.withReply (session.openedTable handle) fun classes =>
    session.withReply (Reply.ofOutcome (Hierarchy.ofTable classes)) fun hierarchy =>
      ⟨.ok (.closed classes.size),
        { session with tables := rebind session.tables handle (.closed hierarchy) },
        [hierarchy.closedEvent]⟩

def perform (session : Session) : Command → Step
  | .build decls => session.build decls
  | .openTable =>
      let tag := session.tables.size + 1
      ⟨.ok (.opened tag),
        { session with tables := session.tables.push (.opened (.empty tag)) }, []⟩
  | .define table decl => session.define table decl
  | .closeTable table => session.closeTable table
  | .openStore =>
      ⟨.ok (.store (session.stores.size + 1)),
        { session with stores := session.stores.push .empty }, []⟩
  | .allocate store ref domain =>
      session.withReply (session.findClass ref) fun cls =>
        session.answerOn store (Action.allocate cls domain) .object
  | .allocateNamed store table cls domain =>
      session.withReply (session.classes table) fun classes =>
        session.answerOn store (Action.allocateNamed classes cls domain) .object
  | .write store table id field value =>
      session.withReply (session.classes table) fun classes =>
        let change := Action.update fun instances => instances.write classes id field value
        session.answerOn store change fun _ => .done
  | .keep store id =>
      session.runOn store (Action.query fun instances => instances.get id) keepInstance
  | .release store id true => session.runOn store (Action.release id) keepInstance
  | .release store id false => session.answerOn store (Action.release id) (.inst · none)
  | .create ref domain =>
      session.withReply (session.findClass ref) fun cls =>
        session.keepInstance (.ofClass cls domain) []
  | .keptWrite inst view field value =>
      session.withReply (session.findClass view) fun cls =>
        session.withReply (held session.instances inst) fun kept =>
          session.withReply (Reply.ofOutcome (kept.write cls field value)) fun changed =>
            ⟨.ok .done, { session with instances := rebind session.instances inst changed }, []⟩
  | .attach table store options =>
      session.withReply (session.hierarchy table) fun hierarchy =>
        session.withReply (held session.stores store) fun instances =>
          ⟨.ok (.dispatcher (session.dispatchers.size + 1) options hierarchy.classes.size
              instances.size),
            { session with dispatchers := session.dispatchers.push ⟨table, store, options⟩ },
            []⟩
  | .reference dispatcher id staticType =>
      session.dispatchOn dispatcher (·.reference id staticType) keepReference
  | .exactReference dispatcher id =>
      session.dispatchOn dispatcher (·.exactReference id) keepReference
  | .dispatcherAllocate dispatcher cls domain =>
      session.answerThrough dispatcher (·.allocate cls domain) .object
  | .dispatcherWrite dispatcher id field value =>
      session.answerThrough dispatcher (·.write id field value) fun _ => .done
  | .invoke dispatcher reference signature args =>
      session.withReply (held session.references reference) fun reference =>
        session.answerThrough dispatcher (·.invoke reference signature args) .value
  | .call dispatcher reference method args =>
      session.withReply (held session.references reference) fun reference =>
        session.answerThrough dispatcher (·.call reference method args) .value
  | .send dispatcher id method args =>
      session.answerThrough dispatcher (·.send id method args) .value

end Session

end Lineage
