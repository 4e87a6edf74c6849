import Lineage.Proofs.Naive.Refinement
import Lineage.Session.Basic

/-!
# Hosts

What a host does with the instances of one hierarchy, request by request, on the
engine or on the naive interpreter.  References are made by requests and are then
meant by their position among all that were made.
-/

set_option autoImplicit false

namespace Lineage

inductive Request (Ref : Type) where
  | allocate (cls : String) (domain : Domain)
  | reference (id : InstanceNo) (staticType : String)
  | exactReference (id : InstanceNo)
  | invoke (reference : Ref) (signature : Signature) (args : List Value)
  | call (reference : Ref) (method : String) (args : List Value)
  | read (id : InstanceNo) (field : String)
  | write (id : InstanceNo) (field : String) (value : Value)
  | readDeclared (id : InstanceNo) (declaring field : String)
  | release (id : InstanceNo)

inductive Answer (Ref Obj : Type) where
  | done
  | number (id : InstanceNo)
  | value (value : Value)
  | reference (reference : Ref)
  | released (object : Obj)

namespace Request

variable {Ref : Type}

/-- The request with the reference that it means, if there is one. -/
def refer? (made : List Ref) : Request Nat → Option (Request Ref)
  | .allocate cls domain => some (.allocate cls domain)
  | .reference id staticType => some (.reference id staticType)
  | .exactReference id => some (.exactReference id)
  | .invoke position signature args => made[position]?.map (.invoke · signature args)
  | .call position method args => made[position]?.map (.call · method args)
  | .read id field => some (.read id field)
  | .write id field value => some (.write id field value)
  | .readDeclared id declaring field => some (.readDeclared id declaring field)
  | .release id => some (.release id)

end Request

namespace Answer

variable {Ref Obj OtherRef OtherObj : Type}

def map (onRef : Ref → OtherRef) (onObj : Obj → OtherObj) :
    Answer Ref Obj → Answer OtherRef OtherObj
  | .done => .done
  | .number id => .number id
  | .value found => .value found
  | .reference made => .reference (onRef made)
  | .released object => .released (onObj object)

/-- The reference that an answer gives to the host. -/
def reference? : Answer Ref Obj → Option Ref
  | .reference made => some made
  | _ => none

end Answer

section Transcript
variable {Ref Obj State : Type}

/-- The replies to a sequence of requests, each with the state after it. -/
def transcript (serve : Request Ref → State → Outcome (Answer Ref Obj) × State)
    (made : List Ref) (state : State) :
    List (Request Nat) → List (Reply (Answer Ref Obj) × State)
  | [] => []
  | request :: rest =>
      match request.refer? made with
      | none => (.error .dangling, state) :: transcript serve made state rest
      | some request =>
          match serve request state with
          | (.error failure, after) =>
              (.error (.failed failure), after) :: transcript serve made after rest
          | (.ok answer, after) =>
              (.ok answer, after) ::
                transcript serve (made ++ answer.reference?.toList) after rest

end Transcript

def Dispatcher.perform (dispatcher : Dispatcher) :
    Request Reference → Action (Answer Reference Instance)
  | .allocate cls domain => .number <$> dispatcher.allocate cls domain
  | .reference id staticType => .reference <$> dispatcher.reference id staticType
  | .exactReference id => .reference <$> dispatcher.exactReference id
  | .invoke reference signature args => .value <$> dispatcher.invoke reference signature args
  | .call reference method args => .value <$> dispatcher.call reference method args
  | .read id field => .value <$> dispatcher.read id field
  | .write id field value => (fun _ => .done) <$> dispatcher.write id field value
  | .readDeclared id declaring field => .value <$> Action.query fun store =>
      store.readDeclared dispatcher.hierarchy.classes id declaring field
  | .release id => .released <$> Action.release id

def Dispatcher.serve (dispatcher : Dispatcher) (request : Request Reference) (store : Store) :
    Outcome (Answer Reference Instance) × Store :=
  let effect := dispatcher.perform request store
  (effect.result, effect.store)

namespace Naive

def Machine.perform (machine : Machine) :
    Request Reference → Run (Answer Reference Object)
  | .allocate cls domain => .number <$> machine.allocate cls domain
  | .reference id staticType => .reference <$> machine.reference id staticType
  | .exactReference id => .reference <$> exactReference id
  | .invoke reference signature args => .value <$> machine.invoke reference signature args
  | .call reference method args =>
      .value <$> machine.invoke reference ⟨method, args.length⟩ args
  | .read id field => .value <$> machine.read id field
  | .write id field value => (fun _ => .done) <$> machine.write id field value
  | .readDeclared id declaring field => .value <$> machine.readDeclared id declaring field
  | .release id => .released <$> Naive.release id

def Machine.serve (machine : Machine) (request : Request Reference) (heap : Heap) :
    Outcome (Answer Reference Object) × Heap :=
  let (result, after) := Run.on (machine.perform request) heap
  (result.mapError .fault, after)

/-! ## Requests -/

section Requests
variable {hierarchy : Hierarchy} {decls : List ClassDecl} (flat : hierarchy.Flat decls)
  (plain : hierarchy.Plain) (options : Options)

theorem isSubclassOf_eq (holds : hierarchy.classes.Holds decls) {cls view : Class}
    (own : hierarchy.classes.find? cls.id = some cls)
    (viewFound : hierarchy.classes.find? view.id = some view) :
    hierarchy.classes.isSubclassOf cls.id view.id = .ok (isBelow decls cls.name view.name) := by
  obtain ⟨chain, chained⟩ := holds.exists_chain own
  rw [chained.isSubclassOf_eq holds own viewFound, isBelow_eq holds chained own viewFound]

include flat

theorem refines_reference (id : InstanceNo) (staticType : String) :
    Refines hierarchy.classes (Refers hierarchy.classes)
      (Dispatcher.reference ⟨hierarchy, options⟩ id staticType)
      (Machine.reference ⟨decls, options.maxCallDepth⟩ id staticType) := by
  refine (refines_idOf flat staticType).bind ?_
  rintro _ decl ⟨view, rfl, made⟩
  refine (refines_classOf flat options id).bind ?_
  rintro _ object ⟨cls, own, rfl, name⟩
  dsimp only
  rw [isSubclassOf_eq flat.holds own made.found, Action.lift_ok_bind, name, ← made.name]
  cases isBelow decls cls.name view.name with
  | true => exact refines_pure ⟨view, made.found, rfl, rfl⟩
  | false =>
      rw [ClassTable.classAt_of_find? own, ClassTable.classAt_of_find? made.found]
      exact refines_raise _

theorem refines_exactReference (id : InstanceNo) :
    Refines hierarchy.classes (Refers hierarchy.classes)
      (Dispatcher.exactReference ⟨hierarchy, options⟩ id) (exactReference id) := by
  refine (refines_classOf flat options id).bind ?_
  rintro _ object ⟨cls, own, rfl, name⟩
  rw [name]
  exact refines_pure ⟨cls, own, rfl, rfl⟩

/-- The part of a declared read that comes after its class is known. -/
theorem refines_readView {view : Class} {decl : ClassDecl}
    (made : Made hierarchy.classes view decl) (id : InstanceNo) (field : String) :
    Refines hierarchy.classes Eq
      (Action.query fun store => do
        let inst ← store.get id
        let exact ← hierarchy.classes.get inst.cls
        if ← hierarchy.classes.isSubclassOf exact.id view.id then
          inst.read view field
        else refuse (.incompatibleStaticType exact.name view.name))
      (do
        let object ← objectAt id
        if isBelow decls object.cls decl.name then
          Machine.readAs ⟨decls, options.maxCallDepth⟩ object decl.name field
        else throw (.incompatibleStaticType object.cls decl.name)) := by
  have holds := flat.holds
  apply refines_of_live
  · intro store absent
    simp [Action.query, Store.get, absent, refuse, bind, Except.bind]
  · intro store inst cls typed live fits
    have own := fits.own holds
    obtain ⟨chain, chained⟩ := holds.exists_chain own
    rw [cls_of_fits fits, ← made.name]
    simp only [Action.query, Store.get, live, ClassTable.get_of_find? fits.found, bind,
      Except.bind, isSubclassOf_eq holds own made.found]
    cases below : isBelow decls cls.name view.name with
    | false => exact ⟨typed, rfl, .fault _⟩
    | true =>
        rw [isBelow_eq holds chained own made.found, decide_eq_true_eq] at below
        obtain ⟨member, inChain, sameId⟩ := List.mem_map.mp below
        have memberFound := chained.find?_of_mem holds own inChain
        rw [sameId, made.found] at memberFound
        cases memberFound
        exact follows_readAs flat options fits chained inChain field typed

theorem refines_readDeclared (id : InstanceNo) (declaring field : String) :
    Refines hierarchy.classes Eq
      (Action.query fun store => store.readDeclared hierarchy.classes id declaring field)
      (Machine.readDeclared ⟨decls, options.maxCallDepth⟩ id declaring field) := by
  have parts : (Action.query fun store =>
      store.readDeclared hierarchy.classes id declaring field) =
      (Action.lift (hierarchy.classes.lookup declaring) >>= fun view =>
        Action.query fun store => do
          let inst ← store.get id
          let exact ← hierarchy.classes.get inst.cls
          if ← hierarchy.classes.isSubclassOf exact.id view.id then
            inst.read view field
          else refuse (.incompatibleStaticType exact.name view.name)) := by
    funext store
    unfold Store.readDeclared
    cases hierarchy.classes.lookup declaring <;> rfl
  rw [parts]
  refine (refines_lookup flat declaring).bind ?_
  intro view decl made
  exact refines_readView flat options made id field

omit flat in
theorem refines_release (id : InstanceNo) :
    Refines hierarchy.classes (fun inst object => object = Object.ofInstance hierarchy.classes inst)
      (Action.release id) (release id) := by
  apply refines_of_live
  · intro store absent
    simp [Action.release, Store.release, Store.get, absent, refuse, bind, Except.bind]
  · intro store inst cls typed live fits
    have run : Action.release id store = ⟨.ok inst, store.put id none, [.released id]⟩ := by
      simp [Action.release, Store.release, Store.get, live, bind, Except.bind, pure, Except.pure]
    rw [run]
    refine ⟨typed_put live typed none ?_, ?_, .ok rfl⟩
    · intro other impossible
      cases impossible
    · rw [ofStore_put live]
      rfl

end Requests

/-! ## Transcripts -/

def Reference.ofReference (table : ClassTable) (reference : Lineage.Reference) : Reference :=
  ⟨reference.target, table.nameOf reference.staticType⟩

def ofAnswer (table : ClassTable) :
    Answer Lineage.Reference Instance → Answer Reference Object :=
  Answer.map (Reference.ofReference table) (Object.ofInstance table)

theorem reference?_ofAnswer (table : ClassTable) (answer : Answer Lineage.Reference Instance) :
    (ofAnswer table answer).reference? =
      answer.reference?.map (Reference.ofReference table) := by
  cases answer <;> rfl

/-- The reference has the static type of some class of the table. -/
def Proper (table : ClassTable) (reference : Lineage.Reference) : Prop :=
  Refers table reference (Reference.ofReference table reference)

/-- The same answer, and no improper reference. -/
def Tells (table : ClassTable) (answer : Answer Lineage.Reference Instance)
    (naive : Answer Reference Object) : Prop :=
  naive = ofAnswer table answer ∧ ∀ made, answer.reference? = some made → Proper table made

theorem tells_of_refers {table : ClassTable} {reference : Lineage.Reference} {naive : Reference}
    (refers : Refers table reference naive) : Tells table (.reference reference)
      (.reference naive) := by
  obtain ⟨cls, own, isStatic, rfl⟩ := refers
  have same : Reference.ofReference table reference = ⟨reference.target, cls.name⟩ := by
    rw [Reference.ofReference, isStatic, ClassTable.nameOf_of_find? own]
  refine ⟨congrArg Answer.reference same.symm, ?_⟩
  intro made isMade
  cases isMade
  exact ⟨cls, own, isStatic, same⟩

section Transcripts
variable {hierarchy : Hierarchy} {decls : List ClassDecl} (flat : hierarchy.Flat decls)
  (plain : hierarchy.Plain) (options : Options)

theorem serve_cases {dispatcher : Dispatcher} {machine : Machine} {table : ClassTable}
    {meant : Request Lineage.Reference} {naive : Request Reference}
    (refines : Refines table (Tells table) (dispatcher.perform meant) (machine.perform naive))
    {store : Store} (typed : Typed table store) :
    ∃ after, Typed table after ∧
      ((∃ cause, dispatcher.serve meant store = (.error (.fault cause), after) ∧
          machine.serve naive (Heap.ofStore table store) =
            (.error (.fault cause), Heap.ofStore table after)) ∨
        ∃ answer, dispatcher.serve meant store = (.ok answer, after) ∧
          machine.serve naive (Heap.ofStore table store) =
            (.ok (ofAnswer table answer), Heap.ofStore table after) ∧
          ∀ reference, answer.reference? = some reference → Proper table reference) := by
  have follows := refines store typed
  rcases engine : dispatcher.perform meant store with ⟨result, after, events⟩
  rcases interpreted : Run.on (machine.perform naive) (Heap.ofStore table store) with
    ⟨answer, left⟩
  rw [engine, interpreted] at follows
  obtain ⟨typedAfter, heap, ends⟩ := follows
  dsimp only at typedAfter heap ends
  subst heap
  refine ⟨after, typedAfter, ?_⟩
  rw [Dispatcher.serve, engine, Machine.serve, interpreted]
  cases ends with
  | fault cause => exact Or.inl ⟨cause, rfl, rfl⟩
  | @ok answer twin tells =>
      obtain ⟨rfl, proper⟩ := tells
      exact Or.inr ⟨answer, rfl, rfl, proper⟩

theorem tells_plain {α : Type} {table : ClassTable}
    {answer : α → Answer Lineage.Reference Instance} {naive : α → Answer Reference Object}
    (same : ∀ value, naive value = ofAnswer table (answer value))
    (noReference : ∀ value, (answer value).reference? = none) (value twin : α)
    (isTwin : value = twin) : Tells table (answer value) (naive twin) := by
  subst isTwin
  refine ⟨same value, ?_⟩
  intro made isMade
  rw [noReference value] at isMade
  cases isMade

include flat plain

/-- Requests that mean proper references are served alike. -/
theorem refines_perform (made : List Lineage.Reference)
    (proper : ∀ reference ∈ made, Proper hierarchy.classes reference) (request : Request Nat) :
    (request.refer? made = none ∧
        request.refer? (made.map (Reference.ofReference hierarchy.classes)) = none) ∨
      ∃ meant naive, request.refer? made = some meant ∧
        request.refer? (made.map (Reference.ofReference hierarchy.classes)) = some naive ∧
        Refines hierarchy.classes (Tells hierarchy.classes)
          (Dispatcher.perform ⟨hierarchy, options⟩ meant)
          (Machine.perform ⟨decls, options.maxCallDepth⟩ naive) := by
  cases request with
  | allocate cls domain =>
      refine Or.inr ⟨_, _, rfl, rfl, (refines_allocate flat options cls domain).map ?_⟩
      exact tells_plain (fun _ => rfl) fun _ => rfl
  | reference id staticType =>
      refine Or.inr ⟨_, _, rfl, rfl, (refines_reference flat options id staticType).map ?_⟩
      exact fun _ _ refers => tells_of_refers refers
  | exactReference id =>
      refine Or.inr ⟨_, _, rfl, rfl, (refines_exactReference flat options id).map ?_⟩
      exact fun _ _ refers => tells_of_refers refers
  | invoke position signature args =>
      cases given : made[position]? with
      | none => exact Or.inl (by simp [Request.refer?, given])
      | some reference =>
          have refers := proper reference (List.mem_of_getElem? given)
          refine Or.inr ⟨.invoke reference signature args,
            .invoke (Reference.ofReference hierarchy.classes reference) signature args,
            by simp [Request.refer?, given], by simp [Request.refer?, given],
            (refines_invoke flat plain options refers signature args).map ?_⟩
          exact tells_plain (fun _ => rfl) fun _ => rfl
  | call position method args =>
      cases given : made[position]? with
      | none => exact Or.inl (by simp [Request.refer?, given])
      | some reference =>
          have refers := proper reference (List.mem_of_getElem? given)
          refine Or.inr ⟨.call reference method args,
            .call (Reference.ofReference hierarchy.classes reference) method args,
            by simp [Request.refer?, given], by simp [Request.refer?, given],
            (refines_invoke flat plain options refers ⟨method, args.length⟩ args).map ?_⟩
          exact tells_plain (fun _ => rfl) fun _ => rfl
  | read id field =>
      refine Or.inr ⟨_, _, rfl, rfl, (refines_read flat options id field).map ?_⟩
      exact tells_plain (fun _ => rfl) fun _ => rfl
  | write id field value =>
      refine Or.inr ⟨_, _, rfl, rfl, (refines_write flat options id field value).map ?_⟩
      exact tells_plain (fun _ => rfl) fun _ => rfl
  | readDeclared id declaring field =>
      refine Or.inr ⟨_, _, rfl, rfl, (refines_readDeclared flat options id declaring field).map ?_⟩
      exact tells_plain (fun _ => rfl) fun _ => rfl
  | release id =>
      refine Or.inr ⟨_, _, rfl, rfl, (refines_release id).map ?_⟩
      rintro inst _ rfl
      refine ⟨rfl, ?_⟩
      intro made isMade
      cases isMade

theorem transcript_ofStore (made : List Lineage.Reference)
    (proper : ∀ reference ∈ made, Proper hierarchy.classes reference) (store : Store)
    (typed : Typed hierarchy.classes store) (requests : List (Request Nat)) :
    transcript (Machine.serve ⟨decls, options.maxCallDepth⟩)
        (made.map (Reference.ofReference hierarchy.classes))
        (Heap.ofStore hierarchy.classes store) requests =
      (transcript (Dispatcher.serve ⟨hierarchy, options⟩) made store requests).map
        fun entry => (entry.1.map (ofAnswer hierarchy.classes),
          Heap.ofStore hierarchy.classes entry.2) := by
  induction requests generalizing made store with
  | nil => rfl
  | cons request rest ih =>
      rcases refines_perform flat plain options made proper request with
        ⟨dangles, naiveDangles⟩ | ⟨meant, naive, means, naiveMeans, refines⟩
      · simp only [transcript, dangles, naiveDangles, List.map_cons, ih made proper store typed]
        rfl
      · obtain ⟨after, typedAfter, ends⟩ := serve_cases refines typed
        rcases ends with ⟨cause, served, naiveServed⟩ | ⟨answer, served, naiveServed, given⟩
        · simp only [transcript, means, naiveMeans, served, naiveServed, List.map_cons,
            ih made proper after typedAfter]
          rfl
        · have properAll : ∀ reference ∈ made ++ answer.reference?.toList,
              Proper hierarchy.classes reference := by
            intro reference member
            rcases List.mem_append.mp member with before | now
            · exact proper reference before
            · exact given reference (Option.mem_toList.mp now)
          have further := ih (made ++ answer.reference?.toList) properAll after typedAfter
          rw [List.map_append, ← Option.toList_map, ← reference?_ofAnswer] at further
          simp only [transcript, means, naiveMeans, served, naiveServed, List.map_cons, further]
          rfl

end Transcripts

end Naive

namespace Dispatcher

/-- The engine answers every sequence of requests as the naive interpreter does, and
after each request its store stands for the heap of the interpreter. -/
theorem transcript_eq_naive (tag : Nat) (decls : List ClassDecl) (hierarchy : Hierarchy)
    (built : Hierarchy.build tag decls = .ok hierarchy)
    (plain : ∀ decl ∈ decls, ∀ method ∈ decl.methods, method.body.isExpr = true)
    (options : Options) (requests : List (Request Nat)) :
    transcript (Naive.Machine.serve ⟨decls, options.maxCallDepth⟩) [] .empty requests =
      (transcript (Dispatcher.serve ⟨hierarchy, options⟩) [] .empty requests).map
        fun entry => (entry.1.map (Naive.ofAnswer hierarchy.classes),
          Naive.Heap.ofStore hierarchy.classes entry.2) := by
  have flat := Hierarchy.flat_of_build built
  have noReferences : ∀ reference ∈ ([] : List Reference),
      Naive.Proper hierarchy.classes reference := by
    intro reference impossible
    cases impossible
  have whole := Naive.transcript_ofStore flat (flat.plain_of_decls plain) options [] noReferences
    .empty (Naive.typed_empty hierarchy.classes) requests
  rw [Naive.ofStore_empty] at whole
  exact whole

/-- Calls through a reference, one of which fails midway, and reads afterwards. -/
def sampleRequests : List (Request Nat) :=
  [.allocate "Leaf" .unmanaged, .reference 1 "Node", .call 0 "grow" [],
    .readDeclared 1 "Node" "next", .read 2 "label", .release 2, .read 1 "next",
    .call 3 "grow" []]

theorem sampleRequests_transcript :
    Hierarchy.build 1 sampleDecls = .ok sampleHierarchy ∧
      (∀ decl ∈ sampleDecls, ∀ method ∈ decl.methods, method.body.isExpr = true) ∧
      transcript (Naive.Machine.serve ⟨sampleDecls, 256⟩) [] .empty sampleRequests =
        (transcript (Dispatcher.serve ⟨sampleHierarchy, {}⟩) [] .empty sampleRequests).map
          fun entry => (entry.1.map (Naive.ofAnswer sampleHierarchy.classes),
            Naive.Heap.ofStore sampleHierarchy.classes entry.2) := by
  have built : Hierarchy.build 1 sampleDecls = .ok sampleHierarchy := rfl
  have plain : ∀ decl ∈ sampleDecls, ∀ method ∈ decl.methods, method.body.isExpr = true := by
    decide
  exact ⟨built, plain, transcript_eq_naive 1 sampleDecls sampleHierarchy built plain {}
    sampleRequests⟩

end Dispatcher

end Lineage
