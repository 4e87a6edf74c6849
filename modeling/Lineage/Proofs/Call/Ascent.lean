import Lineage.Proofs.Call.Failures
import Lineage.Proofs.Call.Frames
import Lineage.Proofs.Call.Nodes

/-!
# Super calls ascend

Where a running method goes to the parent, the class that declares it decides and not the
exact class of the receiver.  The chain of the exact class is cut at the declaring class:
what lies below it plays no part, and what is run is declared by the first class above it
that declares the signature (`Stands.ascends`).  So the depth of the declaring class
decreases from one super call to the next (`supers_descends`), and it measures how far calls
can be nested where bodies have no other way to call (`spares_run_tooDeep`).
-/

set_option autoImplicit false

namespace Lineage

open Native (Program)
open Relation (TransGen)

namespace Hierarchy

variable {hierarchy : Hierarchy} {decls : List ClassDecl} {id : ClassId} {declaring : Class}
  {signature : Signature}

/-- What a class resolves is declared by it or by a class that is less deep. -/
theorem Flat.depth_le_of_resolve (flat : hierarchy.Flat decls) {method : Method}
    (found : hierarchy.classes.find? id = some declaring)
    (run : hierarchy.resolve id signature = .ok method) :
    ∃ owner, hierarchy.classes.find? method.owner = some owner ∧ method ∈ owner.methods ∧
      owner.depth ≤ declaring.depth := by
  obtain ⟨cls, owner, clsFound, provides, ownerFound⟩ := flat.provides_of_resolve run
  cases Option.some.inj (clsFound.symm.trans found)
  obtain ⟨before, after, chained, _⟩ := provides.nearest
  have own : hierarchy.classes.find? declaring.id = some declaring := by
    rw [flat.holds.id_of_find? found, found]
  refine ⟨owner, provides.owned ▸ ownerFound, provides.declared.1, ?_⟩
  exact (chained.getElem?_of_mem flat.holds own
    (List.mem_append_right before List.mem_cons_self)).1

/-- What a class inherits is declared by a class that is less deep. -/
theorem Flat.depth_lt_of_inheritedMethod (flat : hierarchy.Flat decls) {method : Method}
    (found : hierarchy.classes.find? id = some declaring)
    (run : hierarchy.inheritedMethod id signature = .ok method) :
    ∃ owner, hierarchy.classes.find? method.owner = some owner ∧ method ∈ owner.methods ∧
      owner.depth < declaring.depth := by
  obtain ⟨cls, parent, clsFound, inherits, resolved⟩ := parent_of_inheritedMethod run
  cases Option.some.inj (clsFound.symm.trans found)
  obtain ⟨upper, upperFound, _, depth, _⟩ := flat.holds.parent_of_find? found inherits
  obtain ⟨owner, ownerFound, declared, isAbove⟩ := flat.depth_le_of_resolve upperFound resolved
  exact ⟨owner, ownerFound, declared, by omega⟩

end Hierarchy

/-- A class of a chain is a root and the last, or its parent heads what is above it. -/
theorem ClassTable.Chain.root_or_above {table : ClassTable} {cls member : Class}
    {before after : List Class} (chained : table.Chain cls (before ++ member :: after)) :
    (member.parent = none ∧ after = []) ∨
      ∃ id upper, member.parent = some id ∧ table.find? id = some upper ∧
        table.Chain upper after := by
  cases chained.of_append with
  | root isRoot => exact .inl ⟨isRoot, rfl⟩
  | under inherits found above => exact .inr ⟨_, _, inherits, found, above⟩

/-! ## Where a super call leads -/

namespace Activation

/-- What a super call of the activation comes to on this store, if the chain of the exact
class is made of the classes `below` the declaring class, this class, and those `above`. -/
structure Ascends (dispatcher : Dispatcher) (running : Activation) (below above : List Class)
    (moment : Store) (name : String) (values : List Value) : Prop where
  root : running.owner.parent = none →
    (running.frame dispatcher).invokeSuper name values moment =
      ⟨refuse (.noSuchMethod running.owner.name ⟨name, values.length⟩), moment, []⟩
  /-- The parent is named where no class above declares the method. -/
  nowhere : ∀ upper, running.owner.parent = some upper.id →
    dispatcher.hierarchy.classes.find? upper.id = some upper →
    (∀ cls ∈ above, cls.declares ⟨name, values.length⟩ = false) →
      (running.frame dispatcher).invokeSuper name values moment =
        ⟨refuse (.noSuchMethod upper.name ⟨name, values.length⟩), moment, []⟩
  /-- Otherwise the method of the nearest class above that declares one is entered on the
  same receiver and one level deeper, unless this is too deep. -/
  nearest : ∀ between owner rest, above = between ++ owner :: rest →
    (∀ cls ∈ between, cls.declares ⟨name, values.length⟩ = false) →
    owner.declares ⟨name, values.length⟩ = true →
      owner.id ∉ (below ++ running.owner :: between).map (·.id) ∧
      ∃ method, owner.methods.filter (·.signature = ⟨name, values.length⟩) = [method] ∧
        (running.depth + 1 < dispatcher.options.maxCallDepth →
          (running.frame dispatcher).invokeSuper name values moment =
            enter dispatcher ⟨running.receiver, running.exact, owner, method, values,
              running.depth + 1, moment⟩ moment) ∧
        (dispatcher.options.maxCallDepth ≤ running.depth + 1 →
          (running.frame dispatcher).invokeSuper name values moment =
            ⟨refuse (.callDepthExceeded dispatcher.options.maxCallDepth), moment, []⟩)

/-- The one activation starts the other by going to the parent. -/
structure Supers (dispatcher : Dispatcher) (running called : Activation) : Prop where
  entered : called.Entered dispatcher
  deeper : called.depth = running.depth + 1
  asked : ∃ name next,
    running.Reaches dispatcher (.ask (.invokeSuper name called.args) next) called.start ∧
      running.Asks called dispatcher.hierarchy (.invokeSuper name called.args)

variable {dispatcher : Dispatcher} {decls : List ClassDecl} {running called : Activation}

theorem Supers.starts (supers : running.Supers dispatcher called) :
    running.Starts dispatcher called := by
  obtain ⟨name, next, reaches, asks⟩ := supers.asked
  exact ⟨supers.entered, supers.deeper, _, next, reaches, asks⟩

theorem invokeSuper_of_refused {name : String} {values : List Value} {cause : Fault}
    (nothing : dispatcher.hierarchy.inheritedMethod running.method.owner ⟨name, values.length⟩ =
      refuse cause) (moment : Store) :
    (running.frame dispatcher).invokeSuper name values moment = ⟨refuse cause, moment, []⟩ := by
  rw [Frame.invokeSuper_eq]
  change (Action.lift (dispatcher.hierarchy.inheritedMethod running.method.owner
    ⟨name, values.length⟩) >>= _) moment = _
  rw [nothing]
  rfl

section Standing
variable (flat : dispatcher.hierarchy.Flat decls)
include flat

/-- The nearest class above the declaring class that declares the method provides it. -/
theorem exists_inherited {id : ClassId} {cls : Class} {below between rest : List Class}
    {running owner : Class} (runningFound : dispatcher.hierarchy.classes.find? id = some running)
    (chained : dispatcher.hierarchy.classes.Chain cls
      (below ++ running :: (between ++ owner :: rest))) {signature : Signature}
    (undeclared : ∀ lower ∈ between, lower.declares signature = false)
    (declares : owner.declares signature = true) :
    ∃ method, dispatcher.hierarchy.inheritedMethod id signature = .ok method ∧
      dispatcher.hierarchy.Has method ∧ method.owner = owner.id ∧
      owner.methods.filter (·.signature = signature) = [method] ∧
      dispatcher.hierarchy.classes.find? owner.id = some owner := by
  rcases chained.root_or_above with ⟨_, nothing⟩ | ⟨parent, upper, inherits, upperFound, above⟩
  · simp at nothing
  · have declared : owner ∈ between ++ owner :: rest :=
      List.mem_append_right between List.mem_cons_self
    obtain ⟨provider, method, provides, providerFound, resolved⟩ :=
      flat.exists_provides ⟨upperFound, _, above, owner, declared, declares⟩
    have isFirst : (between ++ owner :: rest).find? (·.declares signature) = some owner :=
      List.find?_eq_some_iff_append.mpr
        ⟨declares, between, rest, rfl, fun lower isLower => by simp [undeclared lower isLower]⟩
    cases Option.some.inj (isFirst.symm.trans (provides.find?_eq above))
    rw [Hierarchy.inheritedMethod_of_parent runningFound inherits]
    exact ⟨method, resolved, flat.has_of_resolve resolved, provides.owned, provides.only,
      providerFound⟩

/-- Of the chain of the exact class only what is above the declaring class counts. -/
theorem Stands.ascends (stands : running.Stands dispatcher) {below above : List Class}
    (chained : dispatcher.hierarchy.classes.Chain running.exact (below ++ running.owner :: above))
    {moment : Store} (lasts : running.start.Lasts moment) (name : String) (values : List Value) :
    running.Ascends dispatcher below above moment name values where
  root isRoot := invokeSuper_of_refused
    (Hierarchy.inheritedMethod_of_root stands.entered.ownerFound isRoot _) moment
  nowhere upper inherits upperFound undeclared := by
    rcases chained.root_or_above with ⟨isRoot, _⟩ | ⟨parent, other, isParent, found, upperChain⟩
    · cases isRoot.symm.trans inherits
    · cases isParent.symm.trans inherits
      cases found.symm.trans upperFound
      apply invokeSuper_of_refused
      rw [Hierarchy.inheritedMethod_of_parent stands.entered.ownerFound inherits]
      exact flat.resolve_of_lacks ⟨found, above, upperChain, undeclared⟩
  nearest between owner rest split undeclared declares := by
    subst split
    have ids := chained.nodup_ids flat.holds stands.entered.exactFound
    rw [← List.cons_append, ← List.append_assoc, List.map_append, List.map_cons,
      List.nodup_append] at ids
    refine ⟨fun isThere => ids.2.2 _ isThere _ List.mem_cons_self rfl, ?_⟩
    obtain ⟨method, inherited, has, owned, only, ownerFound⟩ :=
      exists_inherited flat stands.entered.ownerFound chained undeclared declares
    have attended := stands.entered.attended flat lasts
    obtain ⟨inst, live, isExact, _⟩ := attended.live
    have starts : dispatcher.hierarchy.Starts moment running.receiver running.exact owner method :=
      ⟨⟨inst, live, isExact⟩, stands.entered.exactFound, ownerFound, owned, has⟩
    have runs := invokeSuper_of_inherited attended.exact inherited
    refine ⟨method, only, ?_, ?_⟩
    · intro within
      rw [runs, run_eq_enter starts values within]
    · intro tooDeep
      rw [runs, Nat.sub_eq_zero_of_le tooDeep]
      rfl

/-- A super call stays with the receiver and leads to a class that is less deep. -/
theorem descends_of_supers (stands : running.Stands dispatcher)
    (supers : running.Supers dispatcher called) :
    called.Stands dispatcher ∧ running.start.Lasts called.start ∧
      called.receiver = running.receiver ∧ called.exact = running.exact ∧
      called.owner.depth < running.owner.depth := by
  obtain ⟨calledStands, _, lasts⟩ := stands_of_starts flat stands supers.starts
  obtain ⟨name, next, reaches, asks⟩ := supers.asked
  cases asks with
  | super same inherited =>
      obtain ⟨owner, ownerFound, _, isAbove⟩ :=
        flat.depth_lt_of_inheritedMethod stands.entered.ownerFound inherited
      cases ownerFound.symm.trans supers.entered.ownerFound
      exact ⟨calledStands, lasts, same,
        stands.entered.exact_eq flat lasts supers.entered same, isAbove⟩

/-- So do super calls one after another. -/
theorem supers_descends (stands : running.Stands dispatcher)
    (supers : TransGen (Supers dispatcher) running called) :
    called.Stands dispatcher ∧ running.start.Lasts called.start ∧
      called.receiver = running.receiver ∧ called.exact = running.exact ∧
      called.owner.depth < running.owner.depth := by
  induction supers with
  | single supers => exact descends_of_supers flat stands supers
  | tail _ supers ih =>
      obtain ⟨standsHere, lasts, receiver, exact, isAbove⟩ := ih
      obtain ⟨calledStands, lastsOn, receiverOn, exactOn, isHigher⟩ :=
        descends_of_supers flat standsHere supers
      exact ⟨calledStands, lasts.trans lastsOn, receiverOn.trans receiver, exactOn.trans exact,
        Nat.lt_trans isHigher isAbove⟩

end Standing

end Activation

/-! ## How far super calls can be nested -/

/-- The fault that calls are nested too deep. -/
inductive Failure.TooDeep : Failure → Prop where
  | exceeded (limit : Nat) : TooDeep (.fault (.callDepthExceeded limit))

theorem sparesTables_tooDeep : SparesTables Failure.TooDeep := by
  intro failure ofTable tooDeep
  cases ofTable <;> cases tooDeep

/-- No instance has to be there. -/
theorem sparesMissing_tooDeep : SparesMissing Failure.TooDeep := nofun

/-- Methods of classes that are less deep are run without too much nesting. -/
def Enter.Shallow (hierarchy : Hierarchy) (bound : Nat) (enter : Enter) : Prop :=
  ∀ receiver exact method owner args, hierarchy.classes.find? exact.id = some exact →
    hierarchy.classes.find? method.owner = some owner → method ∈ owner.methods →
    owner.depth < bound → (enter receiver exact.id method args).Spares Failure.TooDeep

section Bounded
variable {hierarchy : Hierarchy} {decls : List ClassDecl} (flat : hierarchy.Flat decls)
  (options : Options)
include flat

theorem Frame.sustains_tooDeep {enter : Enter} {method : Method} {declaring : Class}
    (found : hierarchy.classes.find? method.owner = some declaring)
    (shallow : enter.Shallow hierarchy declaring.depth) (receiver : InstanceNo) (depth : Nat) :
    Frame.Sustains (fun {_} action => action.Spares Failure.TooDeep)
      (fun node => ∀ name, node ≠ .invoke name)
      ⟨⟨hierarchy, options⟩, enter, receiver, method, depth⟩ where
  pure value := Action.spares_pure value
  raise ofEvaluation := by
    refine Action.spares_raise ?_
    intro tooDeep
    cases tooDeep
    cases ofEvaluation
  bind first rest := first.bind fun _ value _ => rest value
  new _ := by
    rw [Frame.allocate_eq]
    exact Dispatcher.spares_allocateFor _ sparesMissing_tooDeep flat sparesTables_tooDeep receiver
      _ _
  get _ target := Dispatcher.spares_read _ sparesMissing_tooDeep sparesTables_tooDeep target _
  set _ target := Dispatcher.spares_write _ sparesMissing_tooDeep sparesTables_tooDeep target _
  invoke absent := absurd rfl (absent _)
  super _ args := by
    rw [Frame.invokeSuper_eq]
    refine Action.Spares.bind (Action.spares_lift
      ((flat.classed_inheritedMethod found _).tabular.spares sparesTables_tooDeep)) ?_
    intro _ inherited isInherited
    refine (Dispatcher.spares_classOf ⟨hierarchy, options⟩ sparesMissing_tooDeep
      sparesTables_tooDeep receiver).bind ?_
    intro store id known
    obtain ⟨inst, exact, _, _, rfl, exactFound⟩ :=
      Dispatcher.exists_of_classOf flat known
    obtain ⟨owner, ownerFound, declared, isAbove⟩ :=
      flat.depth_lt_of_inheritedMethod found isInherited
    exact shallow receiver exact inherited owner args exactFound ownerFound declared isAbove

omit flat in
theorem Dispatcher.spares_announce {exact owner : Class} {method : Method}
    (found : hierarchy.classes.find? exact.id = some exact)
    (ownerFound : hierarchy.classes.find? method.owner = some owner) (receiver : InstanceNo)
    (depth : Nat) :
    (Dispatcher.announce ⟨hierarchy, options⟩ receiver exact.id method depth).Spares
      Failure.TooDeep := by
  apply (Action.spares_lift (spares_classAt found)).bind
  intro _ cls _
  apply (Action.spares_lift (spares_classAt ownerFound)).bind
  intro _ declaring _
  exact fun _ => spares_ok ()

variable (plain : hierarchy.Plain) (noCalls : ∀ name, ¬ hierarchy.Contains (.invoke name))
include plain noCalls

/-- Where super calls are the only ones, the depth of the declaring class bounds how many
levels a method takes. -/
theorem Dispatcher.spares_run_tooDeep (remaining : Nat) :
    Enter.Shallow hierarchy remaining (Dispatcher.run ⟨hierarchy, options⟩ remaining) := by
  induction remaining with
  | zero =>
      intro receiver exact method owner args _ _ _ shallow
      exact absurd shallow (Nat.not_lt_zero _)
  | succ remaining ih =>
      intro receiver exact method owner args found ownerFound declared shallow
      obtain ⟨body, isBody⟩ := exists_expr_of_isExpr (plain.isExpr_of_find? ownerFound declared)
      rw [run_succ_of_expr _ _ _ _ _ _ isBody]
      apply (spares_announce options found ownerFound receiver _).bind
      intro _ _ _
      have enters : Enter.Shallow hierarchy owner.depth
          (Dispatcher.run ⟨hierarchy, options⟩ remaining) := by
        intro receiver exact method other args found otherFound declared isAbove
        exact ih receiver exact method other args found otherFound declared (by omega)
      apply (Frame.sustains_tooDeep flat options ownerFound enters receiver _).eval
      rintro node occurs name rfl
      refine noCalls name (Hierarchy.contains_of_find? ownerFound declared ?_)
      rw [isBody]
      exact occurs

/-- A call on an instance is not cut off if one level more is allowed than its class has
ancestors. -/
theorem Dispatcher.spares_invoke_tooDeep {target : InstanceNo} {store : Store} {inst : Instance}
    {exact : Class} (live : store.find? target = some inst) (isExact : inst.cls = exact.id)
    (found : hierarchy.classes.find? exact.id = some exact)
    (enough : exact.depth + 1 ≤ options.maxCallDepth) (staticType : ClassId)
    (signature : Signature) (args : List Value) :
    Spares Failure.TooDeep
      (Dispatcher.invoke ⟨hierarchy, options⟩ ⟨target, staticType⟩ signature args
        store).result := by
  rw [invoke_eq, Hierarchy.permits_eq_map]
  have classed := flat.classed_resolve staticType signature
  cases permitted : hierarchy.resolve staticType signature with
  | error failure =>
      rw [permitted] at classed
      exact (classed.tabular.spares sparesTables_tooDeep).error
  | ok permits =>
      have foundHere : hierarchy.classes.find? inst.cls = some exact := by rw [isExact, found]
      have dispatched : Dispatcher.dispatch ⟨hierarchy, options⟩
          (Dispatcher.runHost ⟨hierarchy, options⟩) target signature args store =
            (Action.lift (hierarchy.resolve exact.id signature) >>= fun method =>
              Dispatcher.runHost ⟨hierarchy, options⟩ target exact.id method args)
                store :=
        dispatch_of_live _ signature args live foundHere
      change Spares _ (Dispatcher.dispatch _ _ _ _ _ store).result
      rw [dispatched]
      refine Action.Spares.bind (Action.spares_lift
        ((flat.classed_resolve exact.id signature).tabular.spares sparesTables_tooDeep)) ?_ store
      intro _ method resolved
      obtain ⟨owner, ownerFound, declared, isAbove⟩ := flat.depth_le_of_resolve found resolved
      exact spares_run_tooDeep flat options plain noCalls options.maxCallDepth target
        exact method owner args found ownerFound declared (by omega)

omit flat plain noCalls in
/-- A call through the own class of an instance that is there. -/
theorem Dispatcher.send_of_live {dispatcher : Dispatcher} {store : Store} {target : InstanceNo}
    {inst : Instance} {exact : Class} (live : store.find? target = some inst)
    (found : dispatcher.hierarchy.classes.find? inst.cls = some exact) (name : String)
    (args : List Value) :
    dispatcher.send target name args store =
      dispatcher.invoke ⟨target, exact.id⟩ ⟨name, args.length⟩ args store := by
  unfold send exactReference
  rw [bind_assoc, Action.run_bind_of_ok (classOf_of_live live found)]
  rfl

end Bounded

/-- In every method that runs within a call, at every point that it comes to, a super call
goes on with the nearest class strictly above the declaring class that declares the method,
whatever the exact class of the receiver and the classes below declare.  If the declaring
class is a root, it is named as lacking the method, and its parent is if no class above
declares it.  Along super calls the receiver stays and the depth of the declaring class
decreases.  So where bodies call in no other way, no call on an instance is cut off if one
level more is allowed than its class has ancestors. -/
theorem Dispatcher.super_ascends {hierarchy : Hierarchy} (isSealed : hierarchy.Sealed)
    (options : Options) (reference : Reference) (signature : Signature) (args : List Value)
    (store : Store) :
    let dispatcher : Dispatcher := ⟨hierarchy, options⟩
    let Occurs := Activation.Occurs dispatcher reference signature args store
    (∀ dispatch ∈ (dispatcher.invoke reference signature args store).dispatches,
      ∃ running, Occurs running ∧ running.dispatch = dispatch) ∧
    (∀ running program moment, Occurs running → running.Reaches dispatcher program moment →
      ∃ below above,
        hierarchy.classes.ancestors running.exact.id = .ok (below ++ running.owner :: above) ∧
        ∀ name values, running.Ascends dispatcher below above moment name values) ∧
    (∀ running called, Occurs running →
      TransGen (Activation.Supers dispatcher) running called →
        called.receiver = running.receiver ∧ called.exact = running.exact ∧
          called.owner.depth < running.owner.depth) ∧
    (hierarchy.Plain → (∀ name, ¬ hierarchy.Contains (.invoke name)) →
      ∀ inst exact, store.find? reference.target = some inst → inst.cls = exact.id →
        hierarchy.classes.find? exact.id = some exact →
        exact.depth + 1 ≤ options.maxCallDepth → ∀ limit,
          (dispatcher.invoke reference signature args store).result ≠
            refuse (.callDepthExceeded limit) ∧
          ∀ name, (dispatcher.send reference.target name args store).result ≠
            refuse (.callDepthExceeded limit)) := by
  intro dispatcher Occurs
  obtain ⟨decls, flat⟩ := isSealed.exists_flat
  refine ⟨fun dispatch reported => Activation.exists_occurs flat reported, ?_, ?_, ?_⟩
  · intro running program moment occurs reaches
    have stands := occurs.stands flat
    obtain ⟨below, above, chained⟩ := stands.above
    refine ⟨below, above, chained.ancestors_eq flat.holds stands.entered.exactFound, ?_⟩
    exact stands.ascends flat chained (reaches.lasts flat)
  · intro running called occurs supers
    exact (Activation.supers_descends flat (occurs.stands flat) supers).2.2
  · intro plain noCalls inst exact live isExact found enough limit
    have foundHere : hierarchy.classes.find? inst.cls = some exact := by rw [isExact, found]
    refine ⟨fun cutOff => ?_, fun name cutOff => ?_⟩
    · exact spares_invoke_tooDeep flat options plain noCalls live isExact found enough
        reference.staticType signature args _ cutOff (.exceeded limit)
    · rw [send_of_live live foundHere] at cutOff
      exact spares_invoke_tooDeep flat options plain noCalls live isExact found enough
        exact.id _ args _ cutOff (.exceeded limit)

/-! ## A ladder -/

/-- A foot and a top that climb, and a rung between them that does not. -/
def footDecl : ClassDecl := { name := "Foot", methods := [⟨"climb", 0, .expr .this⟩] }

def rungDecl : ClassDecl := { name := "Rung", parent := some "Foot" }

def topDecl : ClassDecl :=
  { name := "Top", parent := some "Rung", methods := [⟨"climb", 0, .expr (.super "climb" [])⟩] }

def foot : Class := .ofDecl ⟨1, 0⟩ none footDecl

def rung : Class := .ofDecl ⟨1, 1⟩ (some foot) rungDecl

def top : Class := .ofDecl ⟨1, 2⟩ (some rung) topDecl

def ladderHierarchy : Hierarchy :=
  match Hierarchy.build 1 [footDecl, rungDecl, topDecl] with
  | .ok hierarchy => hierarchy
  | .error _ => ⟨.empty 1, #[]⟩

/-- The top goes to the foot, past the rung, and three levels are enough. -/
theorem top_ascends :
    let dispatcher : Dispatcher := ⟨ladderHierarchy, { maxCallDepth := 3 }⟩
    let store : Store := ⟨#[some ⟨⟨1, 2⟩, .managed, []⟩]⟩
    let climb := dispatcher.invoke ⟨1, ⟨1, 0⟩⟩ ⟨"climb", 0⟩ [] store
    ladderHierarchy.Sealed ∧ ladderHierarchy.Plain ∧
      climb.dispatches = [⟨1, "Top", ⟨"climb", 0⟩, "Top", 0⟩, ⟨1, "Top", ⟨"climb", 0⟩, "Foot", 1⟩] ∧
      ∃ running called : Activation,
        running.Occurs dispatcher ⟨1, ⟨1, 0⟩⟩ ⟨"climb", 0⟩ [] store ∧
        running.Supers dispatcher called ∧ called.owner = foot ∧
        (running.frame dispatcher).invokeSuper "climb" [] store = called.enter dispatcher store ∧
        called.owner.depth < running.owner.depth ∧
        climb.result ≠ refuse (.callDepthExceeded 3) := by
  intro dispatcher store climb
  have isSealed : ladderHierarchy.Sealed := ⟨1, [footDecl, rungDecl, topDecl], rfl⟩
  have plain : ladderHierarchy.Plain := by decide
  have onlySuper : ∀ cls ∈ ladderHierarchy.classes.classes.toList, ∀ method ∈ cls.methods,
      ∀ node ∈ method.body.nodes, node = .super "climb" := by decide
  have noCalls : ∀ name, ¬ ladderHierarchy.Contains (.invoke name) := by
    rintro name ⟨cls, listed, method, declared, occurs⟩
    cases onlySuper cls listed method declared _ occurs
  let running : Activation :=
    ⟨1, top, top, ⟨⟨1, 2⟩, ⟨"climb", 0⟩, .expr (.super "climb" [])⟩, [], 0, store⟩
  let called : Activation := ⟨1, top, foot, ⟨⟨1, 0⟩, ⟨"climb", 0⟩, .expr .this⟩, [], 1, store⟩
  have begins : running.Begins dispatcher ⟨1, ⟨1, 0⟩⟩ ⟨"climb", 0⟩ [] store :=
    { entered := ⟨rfl, rfl, rfl, by decide⟩
      outermost := rfl
      permitted := rfl
      receiver := rfl
      resolved := rfl
      args := rfl
      start := rfl }
  have occurs : running.Occurs dispatcher ⟨1, ⟨1, 0⟩⟩ ⟨"climb", 0⟩ [] store :=
    ⟨running, begins, .refl⟩
  have supers : running.Supers dispatcher called :=
    { entered := ⟨rfl, rfl, rfl, by decide⟩
      deeper := rfl
      asked := ⟨"climb", _, .start, .super rfl rfl⟩ }
  obtain ⟨_, ascends, descends, bounded⟩ := Dispatcher.super_ascends isSealed
    { maxCallDepth := 3 } ⟨1, ⟨1, 0⟩⟩ ⟨"climb", 0⟩ [] store
  obtain ⟨below, above, isChain, leads⟩ := ascends running _ _ occurs .start
  have split : [top, rung, foot] = below ++ top :: above := Except.ok.inj isChain
  obtain ⟨rfl, rfl⟩ : below = [] ∧ above = [rung, foot] := by
    cases below with
    | nil => exact ⟨rfl, (List.cons.inj split).2.symm⟩
    | cons first rest =>
        have again : top.name ∈ [rung, foot].map (·.name) := by
          rw [(List.cons.inj split).2]
          exact List.mem_map_of_mem (List.mem_append_right rest List.mem_cons_self)
        exact absurd again (by decide)
  obtain ⟨_, method, only, enters, _⟩ :=
    (leads "climb" []).nearest [rung] foot [] rfl (by decide) rfl
  cases only
  refine ⟨isSealed, plain, by decide +kernel, running, called, occurs, supers, rfl,
    enters (by decide), (descends running called occurs (.single supers)).2.2, ?_⟩
  exact (bounded plain noCalls _ top rfl rfl rfl (by decide) 3).1

end Lineage
