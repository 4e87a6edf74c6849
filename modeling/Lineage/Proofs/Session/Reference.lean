import Lineage.Proofs.Call.Gate
import Lineage.Proofs.Session.Evolution

/-!
# References that are kept

A reference is legal when it is made: the instance is there, and the static type is its
class or one above it (`Sees`).  It stays so while the session goes on, for an instance
never changes its class and no number is given out again; only a release from the store
ends it.  So a call through a reference that has been kept is decided by three questions
(`invoke_gated`): whether the static type understands the signature, whether the instance
was released, and which method is nearest on the class that it had from the start.
-/

set_option autoImplicit false

namespace Lineage

/-- The instance is there and of the class `exact`, which `static` is or is above. -/
structure Reference.Sees (reference : Reference) (hierarchy : Hierarchy) (store : Store)
    (exact static : Class) : Prop where
  live : ∃ inst, store.find? reference.target = some inst ∧ inst.cls = exact.id
  exactFound : hierarchy.classes.find? exact.id = some exact
  staticFound : hierarchy.classes.find? reference.staticType = some static
  below : ∃ chain, hierarchy.classes.Chain exact chain ∧ static ∈ chain

namespace Reference

variable {reference : Reference} {hierarchy : Hierarchy} {past now : Store} {exact static : Class}
  {gone : InstanceNo → Prop} (sees : reference.Sees hierarchy past exact static)
  (evolves : past.Evolves gone now)
include sees evolves

theorem Sees.live_of_not_gone (here : ¬ gone reference.target) :
    ∃ inst, now.find? reference.target = some inst ∧ inst.cls = exact.id := by
  obtain ⟨inst, live, isExact⟩ := sees.live
  obtain ⟨current, stillLive, same⟩ := evolves.kept _ inst live here
  exact ⟨current, stillLive, same.cls.trans isExact⟩

theorem Sees.dead_of_gone (isGone : gone reference.target) :
    now.find? reference.target = none := by
  obtain ⟨inst, live, _⟩ := sees.live
  exact evolves.ended _ (Store.bounds_of_find? live).2 (.inr isGone)

end Reference

/-- A sequence that ends well has a first part that does. -/
theorem Action.exists_of_bind {α β : Type} {action : Action α} {next : α → Action β}
    {store : Store} {value : β} (run : ((action >>= next) store).result = .ok value) :
    ∃ first reached events, action store = ⟨.ok first, reached, events⟩ ∧
      (next first reached).result = .ok value := by
  rcases started : action store with ⟨failure | first, reached, events⟩
  · rw [run_bind_of_error started] at run
    cases run
  · rw [run_bind_of_ok started] at run
    exact ⟨first, reached, events, rfl, run⟩

namespace Dispatcher

variable {dispatcher : Dispatcher} {decls : List ClassDecl}
  (flat : dispatcher.hierarchy.Flat decls) {target : InstanceNo} {store : Store}
  {reference : Reference}
include flat

theorem sees_exactReference
    (made : (dispatcher.exactReference target store).result = .ok reference) :
    ∃ exact, reference.Sees dispatcher.hierarchy store exact exact := by
  obtain ⟨id, reached, events, run, last⟩ := Action.exists_of_bind made
  obtain ⟨inst, exact, live, isExact, rfl, found⟩ :=
    exists_of_classOf flat (congrArg Effect.result run)
  cases last
  obtain ⟨chain, chained⟩ := flat.holds.exists_chain found
  exact ⟨exact, ⟨inst, live, isExact⟩, found, found, chain, chained, chained.head_mem⟩

theorem sees_reference {staticType : String}
    (made : (dispatcher.reference target staticType store).result = .ok reference) :
    ∃ exact static, reference.Sees dispatcher.hierarchy store exact static := by
  obtain ⟨staticId, sameStore, _, named, afterName⟩ := Action.exists_of_bind made
  obtain rfl : store = sameStore := congrArg Effect.store named
  obtain ⟨id, reached, events, run, afterClass⟩ := Action.exists_of_bind afterName
  obtain ⟨inst, exact, live, isExact, rfl, found⟩ :=
    exists_of_classOf flat (congrArg Effect.result run)
  obtain ⟨below, _, _, compared, last⟩ := Action.exists_of_bind afterClass
  cases below with
  | false =>
      obtain ⟨_, _, _, _, afterExact⟩ := Action.exists_of_bind last
      obtain ⟨_, _, _, _, raised⟩ := Action.exists_of_bind afterExact
      cases raised
  | true =>
      have isBelow : dispatcher.hierarchy.classes.isSubclassOf exact.id staticId = .ok true :=
        congrArg Effect.result compared
      cases staticFound : dispatcher.hierarchy.classes.find? staticId with
      | none =>
          simp [ClassTable.isSubclassOf, ClassTable.classAt, staticFound, bind, Except.bind]
            at isBelow
      | some static =>
          obtain ⟨chain, chained⟩ := flat.holds.exists_chain found
          rw [chained.isSubclassOf_eq flat.holds found staticFound] at isBelow
          obtain ⟨member, inChain, sameId⟩ :=
            List.mem_map.mp (of_decide_eq_true (Except.ok.inj isBelow))
          have memberFound := chained.find?_of_mem flat.holds found inChain
          rw [sameId, staticFound] at memberFound
          cases memberFound
          cases last
          exact ⟨exact, static, ⟨inst, live, isExact⟩, found, staticFound, chain, chained, inChain⟩

end Dispatcher

namespace Session

/-- The command makes the reference, through a dispatcher over the table and the store. -/
structure Makes (session : Session) (making : Command) (table store handle : Handle)
    (reference : Reference) : Prop where
  through : ∃ dispatcher options,
    held session.dispatchers dispatcher = .ok ⟨table, store, options⟩ ∧
    ((∃ id staticType, making = .reference dispatcher id staticType) ∨
      ∃ id, making = .exactReference dispatcher id)
  answer : (session.perform making).reply = .ok (.reference handle reference)

theorem dispatchOn_keepReference {session : Session} {dispatcher store table : Handle}
    {options : Options}
    (attached : held session.dispatchers dispatcher = .ok ⟨table, store, options⟩)
    {action : Dispatcher → Action Reference} {handle : Handle} {reference : Reference}
    (answer : (session.dispatchOn dispatcher action keepReference).reply =
      .ok (.reference handle reference)) :
    ∃ hierarchy instances, held session.tables table = .ok (.closed hierarchy) ∧
      held session.stores store = .ok instances ∧
      (action ⟨hierarchy, options⟩ instances).result = .ok reference ∧
      held (session.dispatchOn dispatcher action keepReference).session.references handle =
        .ok reference := by
  unfold dispatchOn at answer ⊢
  cases found : session.dispatcher dispatcher with
  | error refusal =>
      rw [found] at answer
      cases answer
  | ok known =>
      obtain ⟨through, home⟩ := known
      obtain ⟨_, sameAttachment, isClosed⟩ := (session.dispatcher_eq_ok_iff _ _ _).mp found
      rw [attached] at sameAttachment
      cases sameAttachment
      rw [found] at answer
      simp only [withReply, runOn] at answer ⊢
      cases isStore : held session.stores store with
      | error refusal =>
          rw [isStore] at answer
          cases answer
      | ok instances =>
          rw [isStore] at answer
          simp only at answer ⊢
          cases made : (action through instances).result with
          | error failure =>
              rw [made] at answer
              cases answer
          | ok other =>
              rw [made] at answer
              cases answer
              exact ⟨through.hierarchy, instances, isClosed, rfl, made, held_push_self _ _⟩

/-- A reference that is made sees its instance and can be named. -/
theorem Makes.sees {session : Session} (sound : session.Sound) {making : Command}
    {table store handle : Handle} {reference : Reference}
    (makes : session.Makes making table store handle reference) :
    ∃ hierarchy instances exact static,
      held session.tables table = .ok (.closed hierarchy) ∧
      held session.stores store = .ok instances ∧
      reference.Sees hierarchy instances exact static ∧
      held (session.perform making).session.references handle = .ok reference := by
  obtain ⟨⟨dispatcher, options, attached, isMaking⟩, answer⟩ := makes
  rcases isMaking with ⟨id, staticType, rfl⟩ | ⟨id, rfl⟩
  · obtain ⟨hierarchy, instances, isClosed, isStore, made, isKept⟩ :=
      dispatchOn_keepReference attached answer
    obtain ⟨decls, flat⟩ := sound table _ isClosed
    obtain ⟨exact, static, sees⟩ := Dispatcher.sees_reference flat made
    exact ⟨hierarchy, instances, exact, static, isClosed, isStore, sees, isKept⟩
  · obtain ⟨hierarchy, instances, isClosed, isStore, made, isKept⟩ :=
      dispatchOn_keepReference attached answer
    obtain ⟨decls, flat⟩ := sound table _ isClosed
    obtain ⟨exact, sees⟩ := Dispatcher.sees_exactReference flat made
    exact ⟨hierarchy, instances, exact, exact, isClosed, isStore, sees, isKept⟩

theorem Makes.not_releases {session : Session} {making : Command} {table store handle : Handle}
    {reference : Reference} (makes : session.Makes making table store handle reference)
    (other : Handle) (id : InstanceNo) : ¬ making.Releases other id := by
  obtain ⟨⟨dispatcher, options, _, isMaking⟩, _⟩ := makes
  rintro ⟨keep, rfl⟩
  rcases isMaking with ⟨_, _, impossible⟩ | ⟨_, impossible⟩ <;> cases impossible

/-- While the host goes on, the table, the store and the reference stay what they are,
and the store evolves by what is released from it. -/
theorem Makes.kept {session : Session} (sound : session.Sound) {making : Command}
    {table store handle : Handle} {reference : Reference}
    (makes : session.Makes making table store handle reference) (later : List Command) :
    ∃ hierarchy past instances exact static,
      held session.stores store = .ok past ∧ reference.Sees hierarchy past exact static ∧
      held (session.after (making :: later)).tables table = .ok (.closed hierarchy) ∧
      held (session.after (making :: later)).stores store = .ok instances ∧
      held (session.after (making :: later)).references handle = .ok reference ∧
      past.Evolves (fun id => ∃ command ∈ later, command.Releases store id) instances := by
  obtain ⟨hierarchy, past, exact, static, isClosed, isPast, sees, isKept⟩ := makes.sees sound
  have all := sound.evolves_after (making :: later)
  have rest := (sound.evolves_perform making).sound.evolves_after later
  obtain ⟨instances, isStore, evolves⟩ := all.stores store past isPast
  refine ⟨hierarchy, past, instances, exact, static, isPast, sees, all.tables _ _ isClosed,
    isStore, rest.references _ _ isKept, evolves.congr fun id => ?_⟩
  simp [makes.not_releases store id]

section Now
variable {now : Session} {caller handle store : Handle} {dispatcher : Dispatcher}
  {reference : Reference} {instances : Store}
  (isReference : held now.references handle = .ok reference)
  (isDispatcher : now.dispatcher caller = .ok (dispatcher, store))
  (isStore : held now.stores store = .ok instances)

include isReference isDispatcher in
theorem perform_invoke (signature : Signature) (args : List Value) :
    now.perform (.invoke caller handle signature args) =
      now.answerOn store (dispatcher.invoke reference signature args) .value := by
  simp only [perform, isReference, withReply, answerThrough, dispatchOn, isDispatcher, answerOn]

include isStore in
theorem answerOn_congr {α : Type} {action other : Action α}
    (same : action instances = other instances) (answer : α → Command.Answer) :
    now.answerOn store action answer = now.answerOn store other answer := by
  simp only [answerOn, runOn, isStore, withReply, same]

include isStore in
theorem answerOn_of_refuse {α : Type} {action : Action α} {cause : Fault}
    (refuses : action instances = ⟨refuse cause, instances, []⟩) (answer : α → Command.Answer) :
    now.answerOn store action answer = now.refused (.failed (.fault cause)) := by
  simp only [answerOn, runOn, isStore, withReply, refuses, refuse, rebind_self isStore, refused]

end Now

/-- A call through a reference that was made at some time and kept.  If the static type
does not understand the signature it is refused, also when the instance is gone; else if
the instance was released it is refused for that; else the instance still has the class it
had then, which provides a method, and this method runs first, unless no nesting is
allowed.  What is refused changes nothing, and of several references to the instance that
pass the gate each gives the same. -/
theorem invoke_gated (before later : List Command) (making : Command)
    {table store handle : Handle} {reference : Reference}
    (makes : (empty.after before).Makes making table store handle reference) :
    let now := empty.after (before ++ making :: later)
    ∃ hierarchy past instances exact static,
      held (empty.after before).stores store = .ok past ∧
      reference.Sees hierarchy past exact static ∧
      now.hierarchy table = .ok hierarchy ∧ held now.stores store = .ok instances ∧
      ∀ caller options, held now.dispatchers caller = .ok ⟨table, store, options⟩ →
        ∀ signature args,
          let step := now.perform (.invoke caller handle signature args)
          (hierarchy.Lacks reference.staticType static signature ∨
            hierarchy.Understands reference.staticType static signature) ∧
          (hierarchy.Lacks reference.staticType static signature →
            step = now.refused (.failed (.fault (.noSuchMethod static.name signature)))) ∧
          (hierarchy.Understands reference.staticType static signature →
            ((∃ command ∈ later, command.Releases store reference.target) →
              step = now.refused (.failed (.fault (.unknownInstance reference.target)))) ∧
            (¬ (∃ command ∈ later, command.Releases store reference.target) →
              (∃ inst, instances.find? reference.target = some inst ∧ inst.cls = exact.id) ∧
              ∃ owner method, hierarchy.Provides exact signature owner method ∧
                hierarchy.resolve exact.id signature = .ok method ∧
                (options.maxCallDepth = 0 →
                  step = now.refused (.failed (.fault (.callDepthExceeded 0)))) ∧
                (0 < options.maxCallDepth →
                  step = now.answerOn store (Dispatcher.start ⟨hierarchy, options⟩
                    reference.target exact owner method args) .value)) ∧
            ∀ earlier other since otherHandle otherReference view,
              earlier ++ other :: since = before ++ making :: later →
              (empty.after earlier).Makes other table store otherHandle otherReference →
              otherReference.target = reference.target →
              hierarchy.Understands otherReference.staticType view signature →
                now.perform (.invoke caller otherHandle signature args) = step) := by
  intro now
  have isNow : now = (empty.after before).after (making :: later) := after_append _ _ _
  have sound := (sound_empty.evolves_after before).sound
  obtain ⟨hierarchy, past, instances, exact, static, isPast, sees, isClosed, isStore, isReference,
    evolves⟩ := makes.kept sound later
  rw [← isNow] at isClosed isStore isReference
  obtain ⟨decls, flat⟩ := (sound_empty.evolves_after (before ++ making :: later)).sound _ _ isClosed
  refine ⟨hierarchy, past, instances, exact, static, isPast, sees,
    (now.hierarchy_eq_ok_iff _ _).mpr isClosed, isStore, ?_⟩
  intro caller options attached signature args step
  let dispatcher : Dispatcher := ⟨hierarchy, options⟩
  have flatHere : dispatcher.hierarchy.Flat decls := flat
  have isDispatcher : now.dispatcher caller = .ok (dispatcher, store) :=
    (now.dispatcher_eq_ok_iff _ _ _).mpr ⟨table, attached, isClosed⟩
  have isStep : step = now.answerOn store (dispatcher.invoke reference signature args) .value :=
    perform_invoke isReference isDispatcher signature args
  refine ⟨flat.lacks_or_understands sees.staticFound signature, ?_, ?_⟩
  · intro lacks
    rw [isStep]
    exact answerOn_of_refuse isStore (Dispatcher.invoke_of_lacks flatHere args lacks) _
  intro understands
  refine ⟨?_, ?_, ?_⟩
  · intro released
    rw [isStep]
    exact answerOn_of_refuse isStore
      (Dispatcher.invoke_of_dead flatHere args understands (sees.dead_of_gone evolves released)) _
  · intro notReleased
    obtain ⟨inst, live, isExact⟩ := sees.live_of_not_gone evolves notReleased
    obtain ⟨chain, chained, above⟩ := sees.below
    obtain ⟨owner, method, provides, resolved, none, positive⟩ :=
      Dispatcher.exists_invoke_of_live flatHere args understands
        (understands.below sees.exactFound chained above) live isExact
    refine ⟨⟨inst, live, isExact⟩, owner, method, provides, resolved, ?_, ?_⟩
    · intro noDepth
      rw [isStep]
      exact answerOn_of_refuse isStore (none noDepth) _
    · intro someDepth
      rw [isStep]
      exact answerOn_congr isStore (positive someDepth) _
  · intro earlier other since otherHandle otherReference view sameHistory otherMakes sameTarget
      otherUnderstands
    -- Past the gate only the target of a reference matters, so both calls are dispatched alike.
    have isNowToo : now = (empty.after earlier).after (other :: since) := by
      rw [← after_append, sameHistory]
    obtain ⟨_, _, _, _, _, _, _, _, _, isOther, _⟩ :=
      otherMakes.kept (sound_empty.evolves_after earlier).sound since
    rw [← isNowToo] at isOther
    have same : dispatcher.invoke otherReference signature args =
        dispatcher.invoke reference signature args := by
      rw [Dispatcher.invoke_of_understands flatHere args otherUnderstands,
        Dispatcher.invoke_of_understands flatHere args understands, sameTarget]
    rw [isStep, perform_invoke isOther isDispatcher, same]

/-- A leaf that is seen as a node and then told to link by a dispatcher that allows no
nesting. -/
theorem leaf_gated :
    let before : List Command :=
      [.build sampleDecls, .openStore, .attach 1 1 {}, .dispatcherAllocate 1 "Leaf" .managed]
    let later : List Command :=
      [.dispatcherWrite 1 1 "label" (.str "seen"), .attach 1 1 { maxCallDepth := 0 }]
    let now := empty.after (before ++ .reference 1 1 "Node" :: later)
    (empty.after before).Makes (.reference 1 1 "Node") 1 1 1 ⟨1, ⟨1, 0⟩⟩ ∧
      held now.dispatchers 2 = .ok ⟨1, 1, { maxCallDepth := 0 }⟩ ∧
      now.perform (.invoke 2 1 ⟨"link", 1⟩ [.nil]) =
        now.refused (.failed (.fault (.callDepthExceeded 0))) ∧
      now.perform (.invoke 2 1 ⟨"link", 2⟩ [.nil, .nil]) =
        now.refused (.failed (.fault (.noSuchMethod "Node" ⟨"link", 2⟩))) := by
  intro before later now
  have makes : (empty.after before).Makes (.reference 1 1 "Node") 1 1 1 ⟨1, ⟨1, 0⟩⟩ :=
    ⟨⟨1, {}, rfl, .inl ⟨1, "Node", rfl⟩⟩, rfl⟩
  have attached : held now.dispatchers 2 = .ok ⟨1, 1, { maxCallDepth := 0 }⟩ := rfl
  obtain ⟨hierarchy, past, instances, exact, static, isPast, sees, isHierarchy, isStore, gated⟩ :=
    invoke_gated before later _ makes
  obtain rfl : sampleHierarchy = hierarchy := Except.ok.inj isHierarchy
  have isNode : sampleHierarchy.classes.find? ⟨1, 0⟩ = some static := sees.staticFound
  have isRoot : sampleHierarchy.classes.Chain static [static] := by
    cases isNode
    exact .root rfl
  have understands : sampleHierarchy.Understands ⟨1, 0⟩ static ⟨"link", 1⟩ := by
    refine ⟨isNode, _, isRoot, static, List.mem_singleton_self _, ?_⟩
    cases isNode
    decide
  have lacks : sampleHierarchy.Lacks ⟨1, 0⟩ static ⟨"link", 2⟩ := by
    refine ⟨isNode, _, isRoot, List.forall_mem_singleton.mpr ?_⟩
    cases isNode
    decide
  have named : static.name = "Node" := by
    cases isNode
    rfl
  refine ⟨makes, attached, ?_, ?_⟩
  · have notReleased : ¬ ∃ command ∈ later, command.Releases 1 1 := by
      rintro ⟨command, among, keep, rfl⟩
      simp [later] at among
    obtain ⟨_, _, _, _, _, none, _⟩ :=
      ((gated 2 _ attached ⟨"link", 1⟩ [.nil]).2.2 understands).2.1 notReleased
    exact none rfl
  · rw [(gated 2 _ attached ⟨"link", 2⟩ [.nil, .nil]).2.1 lacks, named]

end Session

end Lineage
