import Lineage.Session.Basic

/-!
# Queries

Requests that look at a session and leave it as it is.
-/

set_option autoImplicit false

namespace Lineage

/-- What a session can be asked.  Where a class is named, it is looked up before
anything else is done. -/
inductive Query where
  | size (table : Handle)
  /-- The names of the classes, in the order of definition. -/
  | names (table : Handle)
  | idOf (table : Handle) (name : String)
  | descriptor (table : Handle) (name : String)
  | owns (table : Handle) (cls : ClassRef)
  | className (table : Handle) (cls : ClassRef)
  /-- Unchecked form of `className`. -/
  | ownClassName (table : Handle) (cls : ClassRef)
  | idText (cls : ClassRef)
  | ancestors (table : Handle) (cls : ClassRef)
  | isSubclassOf (table : Handle) (cls ancestor : ClassRef)
  | slotOf (cls : ClassRef) (field : String)
  | declares (cls : ClassRef) (signature : Signature)
  | tableOf (table : Handle) (cls : ClassRef)
  /-- Unchecked form of `tableOf`. -/
  | dispatchTable (table : Handle) (cls : ClassRef)
  | resolve (table : Handle) (cls : ClassRef) (signature : Signature)
  | tableLookup (table : Handle) (cls : ClassRef) (signature : Signature)
  /-- The dispatch table that a class would have below another. -/
  | deriveTable (cls : ClassRef) (parent : Option ClassRef)
  /-- All classes of a closed table with their dispatch tables. -/
  | dump (table : Handle)
  | classOf (store : Handle) (id : InstanceNo)
  | domainOf (store : Handle) (id : InstanceNo)
  | contains (store : Handle) (id : InstanceNo)
  | storeSize (store : Handle)
  | read (store table : Handle) (id : InstanceNo) (field : String)
  | readDeclared (store table : Handle) (id : InstanceNo) (declaring field : String)
  | snapshot (store : Handle) (id : InstanceNo)
  | storeUpTo (store : Handle) (last : Nat)
  /-- The exact class of an instance of the dispatcher's hierarchy. -/
  | dispatcherClassOf (dispatcher : Handle) (id : InstanceNo)
  | dispatcherRead (dispatcher : Handle) (id : InstanceNo) (field : String)
  /-- An instance that is kept outside of stores. -/
  | kept (inst : Handle)
  | keptEqual (left right : Handle)
  | keptRead (inst : Handle) (view : ClassRef) (field : String)

inductive Query.Answer where
  | flag (value : Bool)
  | size (count : Nat)
  | position (slot : Option Nat)
  | text (text : String)
  | texts (texts : List String)
  | classId (id : ClassId)
  | descriptor (cls : Class)
  | method (method : Method)
  | dispatch (table : DispatchTable)
  | found (contained : Bool) (method : Option Method)
  | dump (classes : List (Class × DispatchTable))
  | domain (domain : Domain)
  | value (value : Value)
  | inst (inst : Instance)
  | instances (numbered : List (InstanceNo × Instance))

namespace Session

def findDispatch (session : Session) (ref : ClassRef) : Reply DispatchTable := do
  let found ← session.findClass ref
  let hierarchy ← session.hierarchy ref.table
  Reply.ofOutcome (hierarchy.tableOf found.id)

/-- The outcome of an action through a dispatcher, of which nothing else is used. -/
def outcomeThrough {α : Type} (session : Session) (handle : Handle)
    (action : Dispatcher → Action α) : Reply α := do
  let (dispatcher, store) ← session.dispatcher handle
  let instances ← held session.stores store
  Reply.ofOutcome (action dispatcher instances).result

def ask (session : Session) : Query → Reply Query.Answer
  | .size table => do
      let classes ← session.classes table
      return .size classes.size
  | .names table => do
      let classes ← session.classes table
      return .texts (classes.classes.toList.map (·.name))
  | .idOf table name => do
      let classes ← session.classes table
      return .classId (← Reply.ofOutcome (classes.idOf name))
  | .descriptor table name => do
      let classes ← session.classes table
      return .descriptor (← Reply.ofOutcome (classes.lookup name))
  | .owns table cls => do
      let found ← session.findClass cls
      let classes ← session.classes table
      return .flag (classes.owns found.id)
  | .className table cls => do
      let found ← session.findClass cls
      let classes ← session.classes table
      let here ← Reply.ofOutcome (classes.get found.id)
      return .text here.name
  | .ownClassName table cls => do
      let found ← session.findClass cls
      let classes ← session.classes table
      let here ← Reply.ofOutcome (classes.classAt found.id)
      return .text here.name
  | .idText cls => do
      let found ← session.findClass cls
      return .text found.id.text
  | .ancestors table cls => do
      let found ← session.findClass cls
      let classes ← session.classes table
      let chain ← Reply.ofOutcome (classes.ancestors found.id)
      return .texts (chain.map (·.name))
  | .isSubclassOf table cls ancestor => do
      let found ← session.findClass cls
      let above ← session.findClass ancestor
      let classes ← session.classes table
      return .flag (← Reply.ofOutcome (classes.isSubclassOf found.id above.id))
  | .slotOf cls field => do
      let found ← session.findClass cls
      return .position (found.slotOf? field)
  | .declares cls signature => do
      let found ← session.findClass cls
      return .flag (found.declares signature)
  | .tableOf table cls => do
      let found ← session.findClass cls
      let hierarchy ← session.hierarchy table
      return .dispatch (← Reply.ofOutcome (hierarchy.tableOf found.id))
  | .dispatchTable table cls => do
      let found ← session.findClass cls
      let hierarchy ← session.hierarchy table
      return .dispatch (← Reply.ofOutcome (hierarchy.dispatchTable found.id))
  | .resolve table cls signature => do
      let found ← session.findClass cls
      let hierarchy ← session.hierarchy table
      return .method (← Reply.ofOutcome (hierarchy.resolve found.id signature))
  | .tableLookup table cls signature => do
      let found ← session.findClass cls
      let hierarchy ← session.hierarchy table
      let dispatch ← Reply.ofOutcome (hierarchy.tableOf found.id)
      return .found (dispatch.contains signature) (dispatch.lookup signature)
  | .deriveTable cls parent => do
      let inherited ← match parent with
        | none => pure DispatchTable.empty
        | some ref => session.findDispatch ref
      let found ← session.findClass cls
      return .dispatch (.build found inherited)
  | .dump table => do
      let hierarchy ← session.hierarchy table
      let entries ← hierarchy.classes.classes.toList.mapM fun cls => do
        let dispatch ← Reply.ofOutcome (hierarchy.tableAt cls)
        return (cls, dispatch)
      return .dump entries
  | .classOf store id => do
      let instances ← held session.stores store
      return .classId (← Reply.ofOutcome (instances.classOf id))
  | .domainOf store id => do
      let instances ← held session.stores store
      return .domain (← Reply.ofOutcome (instances.domainOf id))
  | .contains store id => do
      let instances ← held session.stores store
      return .flag (instances.contains id)
  | .storeSize store => do
      let instances ← held session.stores store
      return .size instances.size
  | .read store table id field => do
      let instances ← held session.stores store
      let classes ← session.classes table
      return .value (← Reply.ofOutcome (instances.read classes id field))
  | .readDeclared store table id declaring field => do
      let instances ← held session.stores store
      let classes ← session.classes table
      return .value (← Reply.ofOutcome (instances.readDeclared classes id declaring field))
  | .snapshot store id => do
      let instances ← held session.stores store
      return .inst (← Reply.ofOutcome (instances.get id))
  | .storeUpTo store last => do
      let instances ← held session.stores store
      return .instances (instances.upTo last)
  | .dispatcherClassOf dispatcher id => do
      return .classId (← session.outcomeThrough dispatcher (·.classOf id))
  | .dispatcherRead dispatcher id field => do
      return .value (← session.outcomeThrough dispatcher (·.read id field))
  | .kept inst => do
      return .inst (← held session.instances inst)
  | .keptEqual left right => do
      let first ← held session.instances left
      let second ← held session.instances right
      return .flag (first = second)
  | .keptRead inst view field => do
      let found ← session.findClass view
      let kept ← held session.instances inst
      return .value (← Reply.ofOutcome (kept.read found field))

end Session

end Lineage
