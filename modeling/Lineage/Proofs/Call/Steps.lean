import Lineage.Dispatcher.Call
import Lineage.Proofs.Hierarchy.Nearest

/-!
# A call in steps

The steps of a call that do not depend on the store, taken out of the actions
they are part of: the check of the static type (`permits`), the method that a class
inherits (`inheritedMethod`) and the report of a dispatch (`announce`, `announced`).  The
equations say how the actions are made of them.
-/

set_option autoImplicit false

namespace Lineage

namespace Action

variable {α β : Type}

@[simp] theorem lift_ok_bind (value : α) (next : α → Action β) :
    (lift (.ok value) >>= next) = next value := rfl

theorem lift_bind (outcome : Outcome α) (next : α → Outcome β) :
    lift (outcome >>= next) = (lift outcome >>= fun value => lift (next value)) := by
  cases outcome <;> rfl

end Action

def Body.isExpr : Body → Bool
  | .expr _ => true
  | .native _ => false

theorem exists_expr_of_isExpr {body : Body} (isExpr : body.isExpr = true) :
    ∃ expr, body = .expr expr := by
  cases body with
  | expr expr => exact ⟨expr, rfl⟩
  | native native => cases isExpr

namespace Hierarchy

/-- No class of the hierarchy declares a method that the host provides. -/
def Plain (hierarchy : Hierarchy) : Prop :=
  ∀ cls ∈ hierarchy.classes.classes.toList, ∀ method ∈ cls.methods, method.body.isExpr = true

instance (hierarchy : Hierarchy) : Decidable hierarchy.Plain :=
  inferInstanceAs (Decidable (∀ cls ∈ hierarchy.classes.classes.toList,
    ∀ method ∈ cls.methods, method.body.isExpr = true))

/-- Whether a static type understands a signature. -/
def permits (hierarchy : Hierarchy) (staticType : ClassId) (signature : Signature) :
    Outcome Unit := do
  let table ← hierarchy.tableOf staticType
  if table.contains signature then return ()
  else hierarchy.noSuchMethod staticType signature

/-- What a static type permits is what it resolves. -/
theorem permits_eq_map (hierarchy : Hierarchy) (staticType : ClassId) (signature : Signature) :
    hierarchy.permits staticType signature =
      (hierarchy.resolve staticType signature).map fun _ => () := by
  unfold permits resolve
  cases hierarchy.tableOf staticType with
  | error failure => rfl
  | ok table =>
      have known : table.contains signature = (table.lookup signature).isSome := rfl
      simp only [bind, Except.bind, known]
      cases table.lookup signature with
      | some method => rfl
      | none =>
          simp only [noSuchMethod, bind, Except.bind]
          cases hierarchy.classes.classAt staticType with
          | error failure => rfl
          | ok cls => rfl

/-- The method that a class inherits, whatever it declares itself. -/
def inheritedMethod (hierarchy : Hierarchy) (owner : ClassId) (signature : Signature) :
    Outcome Method := do
  let declaring ← hierarchy.classes.classAt owner
  match declaring.parent with
  | none => refuse (.noSuchMethod declaring.name signature)
  | some parent => hierarchy.resolve parent signature

variable {hierarchy : Hierarchy} {decls : List ClassDecl}

theorem exists_find?_of_resolve {id : ClassId} {signature : Signature} {method : Method}
    (run : hierarchy.resolve id signature = .ok method) :
    ∃ cls, hierarchy.classes.find? id = some cls := by
  unfold resolve tableOf ClassTable.get at run
  cases found : hierarchy.classes.find? id with
  | none => simp [found, refuse, bind, Except.bind] at run
  | some cls => exact ⟨cls, rfl⟩

theorem Flat.resolve_eq_ok (flat : hierarchy.Flat decls) {id : ClassId} {signature : Signature}
    {method : Method} (run : hierarchy.resolve id signature = .ok method) :
    ∃ cls chain owner, hierarchy.classes.find? id = some cls ∧
      hierarchy.classes.Chain cls chain ∧ owner ∈ chain ∧
      hierarchy.classes.find? owner.id = some owner ∧ method ∈ owner.methods ∧
      method.signature = signature := by
  obtain ⟨cls, found⟩ := exists_find?_of_resolve run
  obtain ⟨chain, chained⟩ := flat.holds.exists_chain found
  rw [flat.resolve_eq found chained] at run
  cases first : nearest chain signature with
  | none => simp [first, refuse] at run
  | some nearestMethod =>
      simp only [first, Except.ok.injEq] at run
      subst run
      obtain ⟨owner, inChain, declared, same⟩ := mem_of_nearest first
      have ownFound : hierarchy.classes.find? cls.id = some cls := by
        rw [flat.holds.id_of_find? found, found]
      have ownerFound := chained.find?_of_mem flat.holds ownFound inChain
      exact ⟨cls, chain, owner, found, chained, inChain, ownerFound, declared, same⟩

theorem Plain.isExpr_of_find? (plain : hierarchy.Plain) {id : ClassId} {cls : Class}
    (found : hierarchy.classes.find? id = some cls) {method : Method}
    (declared : method ∈ cls.methods) : method.body.isExpr = true := by
  have stored := ((hierarchy.classes.find?_eq_some_iff id cls).mp found).2
  have listed := List.mem_of_getElem? (Array.getElem?_toList.trans stored)
  exact plain cls listed method declared

theorem Flat.plain_of_decls (flat : hierarchy.Flat decls)
    (isExpr : ∀ decl ∈ decls, ∀ method ∈ decl.methods, method.body.isExpr = true) :
    hierarchy.Plain := by
  intro cls listed method declared
  obtain ⟨index, stored⟩ := List.mem_iff_getElem?.mp listed
  rw [Array.getElem?_toList] at stored
  obtain ⟨decl, parent, isDecl, placed⟩ := flat.holds.placed index cls stored
  rw [placed.made] at declared
  obtain ⟨source, inDecl, rfl⟩ := List.mem_map.mp declared
  exact isExpr decl (List.mem_of_getElem? isDecl) source inDecl

theorem Flat.isExpr_of_resolve (flat : hierarchy.Flat decls) (plain : hierarchy.Plain)
    {id : ClassId} {signature : Signature} {method : Method}
    (run : hierarchy.resolve id signature = .ok method) : method.body.isExpr = true := by
  obtain ⟨cls, chain, owner, _, _, _, ownerFound, declared, _⟩ := flat.resolve_eq_ok run
  exact plain.isExpr_of_find? ownerFound declared

section Inheriting
variable {id : ClassId} {declaring : Class} (found : hierarchy.classes.find? id = some declaring)
include found

theorem inheritedMethod_of_root (isRoot : declaring.parent = none) (signature : Signature) :
    hierarchy.inheritedMethod id signature = refuse (.noSuchMethod declaring.name signature) := by
  simp only [inheritedMethod, ClassTable.classAt_of_find? found, isRoot, bind, Except.bind]

theorem inheritedMethod_of_parent {parent : ClassId} (inherits : declaring.parent = some parent)
    (signature : Signature) :
    hierarchy.inheritedMethod id signature = hierarchy.resolve parent signature := by
  simp only [inheritedMethod, ClassTable.classAt_of_find? found, inherits, bind, Except.bind]

end Inheriting

theorem parent_of_inheritedMethod {owner : ClassId} {signature : Signature} {method : Method}
    (run : hierarchy.inheritedMethod owner signature = .ok method) :
    ∃ declaring parent, hierarchy.classes.find? owner = some declaring ∧
      declaring.parent = some parent ∧ hierarchy.resolve parent signature = .ok method := by
  unfold inheritedMethod at run
  cases known : hierarchy.classes.classAt owner with
  | error failure => simp [known, bind, Except.bind] at run
  | ok declaring =>
      have found := (hierarchy.classes.classAt_eq_ok_iff owner declaring).mp known
      cases inherits : declaring.parent with
      | none => simp [known, inherits, refuse, bind, Except.bind] at run
      | some parent =>
          simp only [known, inherits, bind, Except.bind] at run
          exact ⟨declaring, parent, found, inherits, run⟩

theorem resolve_of_inheritedMethod {owner : ClassId} {signature : Signature} {method : Method}
    (run : hierarchy.inheritedMethod owner signature = .ok method) :
    ∃ parent, hierarchy.resolve parent signature = .ok method := by
  obtain ⟨_, parent, _, _, resolved⟩ := parent_of_inheritedMethod run
  exact ⟨parent, resolved⟩

end Hierarchy

/-! ## Outcomes that name no instance -/

/-- The outcome is not the fault that some instance is unknown. -/
def Unnumbered {α : Type} (outcome : Outcome α) : Prop :=
  ∀ id, outcome ≠ refuse (.unknownInstance id)

/-- The outcome is no fault at all.  It may still be a breach. -/
def Faultless {α : Type} (outcome : Outcome α) : Prop := ∀ cause, outcome ≠ refuse cause

section Faultless
variable {α β : Type}

theorem faultless_ok (value : α) : Faultless (.ok value) := nofun

theorem faultless_breach : Faultless (.error .breach : Outcome α) := nofun

theorem Faultless.unnumbered {outcome : Outcome α} (faultless : Faultless outcome) :
    Unnumbered outcome :=
  fun id => faultless (.unknownInstance id)

theorem Faultless.bind {outcome : Outcome α} {next : α → Outcome β}
    (first : Faultless outcome) (rest : ∀ value, Faultless (next value)) :
    Faultless (outcome >>= next) := by
  cases outcome with
  | ok value => exact rest value
  | error failure =>
      intro cause same
      cases same
      exact first cause rfl

/-! Look-ups without a check. -/

variable (classes : ClassTable) (id : ClassId)

theorem faultless_classAt : Faultless (classes.classAt id) := by
  unfold ClassTable.classAt
  split
  · exact faultless_ok _
  · exact faultless_breach

theorem faultless_climb (steps : Nat) : Faultless (classes.climb steps id) := by
  induction steps generalizing id with
  | zero => exact faultless_breach
  | succ steps ih =>
      apply (faultless_classAt classes id).bind
      intro cls
      split
      · exact faultless_ok _
      · exact (ih _).bind fun above => faultless_ok _

theorem faultless_up (steps : Nat) : Faultless (classes.up steps id) := by
  induction steps generalizing id with
  | zero => exact (faultless_classAt classes id).bind fun cls => faultless_ok (some cls)
  | succ steps ih =>
      apply (faultless_classAt classes id).bind
      intro cls
      split
      · exact faultless_ok _
      · exact ih _

theorem faultless_isSubclassOf (ancestor : ClassId) :
    Faultless (classes.isSubclassOf id ancestor) := by
  apply (faultless_classAt classes ancestor).bind
  intro target
  apply (faultless_classAt classes id).bind
  intro cls
  split
  · exact faultless_ok _
  · apply (faultless_up classes id _).bind
    intro reached
    split
    · exact faultless_ok _
    · exact faultless_ok _

theorem faultless_tableAt (hierarchy : Hierarchy) (cls : Class) :
    Faultless (hierarchy.tableAt cls) := by
  unfold Hierarchy.tableAt
  split
  · exact faultless_ok _
  · exact faultless_breach

theorem faultless_dispatchTable (hierarchy : Hierarchy) : Faultless (hierarchy.dispatchTable id) :=
  (faultless_classAt hierarchy.classes id).bind fun cls => faultless_tableAt hierarchy cls

end Faultless

section Unnumbered
variable {α β : Type}

theorem unnumbered_ok (value : α) : Unnumbered (.ok value) := by
  intro id impossible
  cases impossible

theorem Unnumbered.bind {outcome : Outcome α} {next : α → Outcome β}
    (first : Unnumbered outcome) (rest : ∀ value, Unnumbered (next value)) :
    Unnumbered (outcome >>= next) := by
  cases outcome with
  | ok value => exact rest value
  | error failure =>
      intro id same
      cases same
      exact first id rfl

theorem unnumbered_get (classes : ClassTable) (id : ClassId) : Unnumbered (classes.get id) := by
  unfold ClassTable.get
  split
  · exact unnumbered_ok _
  · intro other impossible
    cases impossible

theorem unnumbered_classAt (classes : ClassTable) (id : ClassId) :
    Unnumbered (classes.classAt id) :=
  (faultless_classAt classes id).unnumbered

theorem unnumbered_idOf (classes : ClassTable) (name : String) :
    Unnumbered (classes.idOf name) := by
  unfold ClassTable.idOf
  split
  · exact unnumbered_ok _
  · intro other impossible
    cases impossible

theorem unnumbered_lookup (classes : ClassTable) (name : String) :
    Unnumbered (classes.lookup name) :=
  (unnumbered_idOf classes name).bind fun id => unnumbered_classAt classes id

theorem unnumbered_position (inst : Instance) (view : Class) (field : String) :
    Unnumbered (inst.position view field) := by
  unfold Instance.position
  split
  · split
    · split
      · exact unnumbered_ok _
      · intro other impossible
        cases impossible
    · intro other impossible
      cases impossible
  · intro other impossible
    cases impossible

variable (hierarchy : Hierarchy) (id : ClassId) (signature : Signature)

theorem unnumbered_tableOf : Unnumbered (hierarchy.tableOf id) :=
  (unnumbered_get hierarchy.classes id).bind fun cls => (faultless_tableAt hierarchy cls).unnumbered

theorem unnumbered_noSuchMethod :
    Unnumbered (hierarchy.noSuchMethod id signature : Outcome α) := by
  refine (unnumbered_classAt hierarchy.classes id).bind fun cls => ?_
  intro other impossible
  cases impossible

theorem unnumbered_resolve : Unnumbered (hierarchy.resolve id signature) := by
  refine (unnumbered_tableOf hierarchy id).bind fun table => ?_
  split
  · exact unnumbered_ok _
  · exact unnumbered_noSuchMethod hierarchy id signature

theorem unnumbered_permits : Unnumbered (hierarchy.permits id signature) := by
  refine (unnumbered_tableOf hierarchy id).bind fun table => ?_
  split
  · exact unnumbered_ok _
  · exact unnumbered_noSuchMethod hierarchy id signature

theorem unnumbered_inheritedMethod : Unnumbered (hierarchy.inheritedMethod id signature) := by
  refine (unnumbered_classAt hierarchy.classes id).bind fun declaring => ?_
  split
  · intro other impossible
    cases impossible
  · exact unnumbered_resolve hierarchy _ signature

end Unnumbered

namespace Dispatcher

theorem invoke_eq (dispatcher : Dispatcher) (reference : Reference) (signature : Signature)
    (args : List Value) :
    dispatcher.invoke reference signature args =
      (Action.lift (dispatcher.hierarchy.permits reference.staticType signature) >>= fun _ =>
        dispatcher.dispatch dispatcher.runHost reference.target signature args) := by
  unfold invoke Hierarchy.permits
  cases dispatcher.hierarchy.tableOf reference.staticType with
  | error failure => rfl
  | ok table =>
      rw [Action.lift_ok_bind, Action.lift_bind, Action.lift_ok_bind]
      split
      · rfl
      · unfold Hierarchy.noSuchMethod
        cases dispatcher.hierarchy.classes.classAt reference.staticType with
        | error failure => rfl
        | ok cls => rfl

/-- The report that a method begins to run. -/
def announce (dispatcher : Dispatcher) (receiver : InstanceNo) (id : ClassId) (method : Method)
    (depth : Nat) : Action Unit := do
  let classes := dispatcher.hierarchy.classes
  let cls ← Action.lift (classes.classAt id)
  let owner ← Action.lift (classes.classAt method.owner)
  Action.emit (.dispatched dispatcher.dispatchLevel receiver cls.name method.signature
    owner.name depth)

/-- The same report, with the name of the class that declares the method. -/
def announced (dispatcher : Dispatcher) (receiver : InstanceNo) (id : ClassId) (method : Method)
    (depth : Nat) : Action String := do
  let classes := dispatcher.hierarchy.classes
  let cls ← Action.lift (classes.classAt id)
  let owner ← Action.lift (classes.classAt method.owner)
  Action.emit (.dispatched dispatcher.dispatchLevel receiver cls.name method.signature
    owner.name depth)
  return owner.name

/-- A new instance for a running method; without a domain it joins the receiver's. -/
def allocateFor (dispatcher : Dispatcher) (receiver : InstanceNo) (cls : String) :
    Option Domain → Action InstanceNo
  | some domain => dispatcher.allocate cls domain
  | none => do
      let domain ← Action.query fun store => store.domainOf receiver
      dispatcher.allocate cls domain

def frameAt (dispatcher : Dispatcher) (remaining : Nat) (receiver : InstanceNo)
    (method : Method) : Frame where
  dispatcher := dispatcher
  enter := dispatcher.run remaining
  receiver := receiver
  method := method
  depth := dispatcher.options.maxCallDepth - (remaining + 1)

section Receivers
variable {dispatcher : Dispatcher} {store : Store} {target : InstanceNo}

theorem classOf_of_dead (dead : store.find? target = none) :
    dispatcher.classOf target store = ⟨refuse (.unknownInstance target), store, []⟩ := by
  simp [classOf, Action.query, Store.classOf, Store.get, dead, refuse, Except.map, bind,
    Action.bind]

variable {inst : Instance} (live : store.find? target = some inst)
include live

theorem classOf_of_live {cls : Class}
    (found : dispatcher.hierarchy.classes.find? inst.cls = some cls) :
    dispatcher.classOf target store = ⟨.ok cls.id, store, []⟩ := by
  simp [classOf, Action.query, Store.classOf, Store.get, live, Except.map, bind, Action.bind,
    Action.lift, ClassTable.get_of_find? found]

/-- The instances of other tables are there, but their classes are unknown. -/
theorem classOf_of_foreign (notFound : dispatcher.hierarchy.classes.find? inst.cls = none) :
    dispatcher.classOf target store = ⟨refuse (.unknownClass inst.cls.text), store, []⟩ := by
  simp [classOf, Action.query, Store.classOf, Store.get, live, Except.map, bind, Action.bind,
    Action.lift, ClassTable.get, notFound, refuse]

end Receivers

theorem run_succ_eq (dispatcher : Dispatcher) (remaining : Nat) (receiver : InstanceNo)
    (id : ClassId) (method : Method) (args : List Value) :
    dispatcher.run (remaining + 1) receiver id method args =
      (dispatcher.announced receiver id method
          (dispatcher.options.maxCallDepth - (remaining + 1)) >>= fun owner =>
        (dispatcher.frameAt remaining receiver method).runBody owner args) := by
  unfold run announced
  simp only [bind_assoc, pure_bind]
  rfl

theorem run_succ_of_expr (dispatcher : Dispatcher) (remaining : Nat) (receiver : InstanceNo)
    (id : ClassId) (method : Method) (args : List Value) {body : Expr}
    (isBody : method.body = .expr body) :
    dispatcher.run (remaining + 1) receiver id method args =
      (dispatcher.announce receiver id method
          (dispatcher.options.maxCallDepth - (remaining + 1)) >>= fun _ =>
        (dispatcher.frameAt remaining receiver method).eval args body) := by
  unfold run announce
  simp only [Frame.runBody, isBody, bind_assoc]
  rfl

end Dispatcher

theorem Frame.allocate_eq (frame : Frame) (cls : String) (domain : Option Domain) :
    frame.allocate cls domain = frame.dispatcher.allocateFor frame.receiver cls domain := by
  cases domain <;> rfl

theorem Frame.runBody_of_expr {frame : Frame} {body : Expr}
    (isBody : frame.method.body = .expr body) (owner : String) (args : List Value) :
    frame.runBody owner args = frame.eval args body := by
  unfold runBody
  rw [isBody]

theorem Frame.runBody_of_native {frame : Frame} {body : Native}
    (isBody : frame.method.body = .native body) (owner : String) (args : List Value) :
    frame.runBody owner args = frame.perform owner (body (frame.view owner) args) := by
  unfold runBody
  rw [isBody]

theorem Frame.invokeSuper_eq (frame : Frame) (method : String) (args : List Value) :
    frame.invokeSuper method args =
      (Action.lift (frame.dispatcher.hierarchy.inheritedMethod frame.method.owner
          ⟨method, args.length⟩) >>= fun inherited =>
        frame.dispatcher.classOf frame.receiver >>= fun id =>
          frame.enter frame.receiver id inherited args) := by
  unfold invokeSuper declaring Hierarchy.inheritedMethod
  rw [Action.lift_bind, bind_assoc]
  refine bind_congr fun declaring => ?_
  cases declaring.parent with
  | none => rfl
  | some parent => rfl

/-! ## A sample -/

/-- Nodes that can grow a leaf, which fails as soon as it has been linked. -/
def sampleDecls : List ClassDecl :=
  [{ name := "Node"
     fields := [⟨"next", .nil⟩, ⟨"label", .str "node"⟩]
     methods :=
       [⟨"link", 1, .expr (.set .this "next" (.arg 0))⟩,
        ⟨"grow", 0, .expr (.seq [.set .this "next" (.new "Leaf" none),
          .invoke (.get .this "next") "link" [.this]])⟩] },
   { name := "Leaf"
     parent := some "Node"
     fields := [⟨"label", .str "leaf"⟩]
     methods :=
       [⟨"link", 1, .expr (.seq [.super "link" [.arg 0], .set .this "label" (.lit (.str "linked")),
          .invoke .this "cut" []])⟩] }]

def sampleHierarchy : Hierarchy :=
  match Hierarchy.build 1 sampleDecls with
  | .ok hierarchy => hierarchy
  | .error _ => ⟨.empty 1, #[]⟩

theorem sampleHierarchy_sealed : sampleHierarchy.Sealed := ⟨1, sampleDecls, rfl⟩

theorem sampleHierarchy_plain : sampleHierarchy.Plain := by decide

/-- A node, and two instances beside it that refer to each other. -/
def sampleStore : Store :=
  ⟨#[some ⟨⟨1, 0⟩, .managed, [.nil, .str "node"]⟩,
     some ⟨⟨1, 0⟩, .managed, [.object 3, .str "node"]⟩,
     some ⟨⟨1, 1⟩, .unmanaged, [.object 2, .str "node", .str "leaf"]⟩]⟩

end Lineage
