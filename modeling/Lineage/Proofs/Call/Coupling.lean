import Mathlib.Data.List.Forall2
import Lineage.Proofs.Call.Steps

/-!
# Couplings

Two calls run side by side on two stores.  A coupling says which stores
correspond and, for corresponding stores, which numbers, faults and events do;
numbers that correspond once go on to correspond.  `Agree` says of two actions
that they lead from corresponding stores to corresponding stores and end alike.
If the steps of two dispatchers agree, so do all calls that run expression bodies
only: `agree_eval` is the step for the nine kinds of expression, `agree_run` the
induction on the nesting of calls, `agree_invoke` the result for calls of the
host.  Two runs of one dispatcher need less (`Within`).
-/

set_option autoImplicit false

namespace Lineage

/-- Values that are the same but for the numbers of the objects. -/
inductive Value.Related (Same : InstanceNo → InstanceNo → Prop) : Value → Value → Prop where
  | object {left right : InstanceNo} (same : Same left right) :
      Related Same (.object left) (.object right)
  | plain {value : Value} (noObject : value.object? = none) : Related Same value value

theorem Value.Related.mono {Before After : InstanceNo → InstanceNo → Prop}
    (grows : ∀ left right, Before left right → After left right) {left right : Value}
    (related : left.Related Before right) : left.Related After right := by
  cases related with
  | object same => exact .object (grows _ _ same)
  | plain noObject => exact .plain noObject

theorem Value.Related.same_of_object {Same : InstanceNo → InstanceNo → Prop}
    {left right : InstanceNo} (related : (Value.object left).Related Same (.object right)) :
    Same left right := by
  cases related with
  | object same => exact same
  | plain noObject => cases noObject

/-- How two answers are compared: what they have to share, and the values that
have to correspond. -/
structure Link (α β : Type) where
  Shape : α → β → Prop
  held : α → β → List (Value × Value)

namespace Link

def value : Link Value Value := ⟨fun _ _ => True, fun left right => [(left, right)]⟩

def values : Link (List Value) (List Value) :=
  ⟨fun left right => left.length = right.length, fun left right => left.zip right⟩

def number : Link InstanceNo InstanceNo :=
  ⟨fun _ _ => True, fun left right => [(.object left, .object right)]⟩

/-- Answers that have to be equal and hold no numbers. -/
def same (α : Type) : Link α α := ⟨fun left right => left = right, fun _ _ => []⟩

/-- Answers that hold no numbers and are compared by a relation. -/
def matching {α β : Type} (Shape : α → β → Prop) : Link α β := ⟨Shape, fun _ _ => []⟩

end Link

structure Coupling where
  Stores : Store → Store → Prop
  Same : Store → Store → InstanceNo → InstanceNo → Prop
  Faults : Store → Store → Fault → Fault → Prop
  Events : Store → Store → Event → Event → Prop
  Classes : ClassId → ClassId → Prop
  Methods : Method → Method → Prop
  /-- Events go on to correspond. -/
  events_mono : ∀ {left right leftAfter rightAfter : Store},
    (∀ id twin, Same left right id twin → Same leftAfter rightAfter id twin) →
      ∀ event other, Events left right event other → Events leftAfter rightAfter event other

namespace Coupling

variable {α β γ δ : Type} (coupling : Coupling)

/-- Corresponding ends: answers of the same shape with corresponding values,
corresponding faults, or a breach on both sides. -/
inductive Ends (left right : Store) (link : Link α β) : Outcome α → Outcome β → Prop where
  | ok {value : α} {other : β} (shape : link.Shape value other)
      (held : ∀ pair ∈ link.held value other,
        pair.1.Related (coupling.Same left right) pair.2) : Ends left right link (.ok value)
          (.ok other)
  | fault {cause other : Fault} (alike : coupling.Faults left right cause other) :
      Ends left right link (.error (.fault cause)) (.error (.fault other))
  | breach : Ends left right link (.error .breach) (.error .breach)

/-- Corresponding effects, after which all numbers that corresponded still do. -/
structure Reached (left right : Store) (link : Link α β) (first : Effect α) (second : Effect β) :
    Prop where
  stores : coupling.Stores first.store second.store
  grows : ∀ id twin, coupling.Same left right id twin →
    coupling.Same first.store second.store id twin
  events : List.Forall₂ (coupling.Events first.store second.store) first.events second.events
  ends : coupling.Ends first.store second.store link first.result second.result

/-- From corresponding stores in which the given values correspond, the two
actions have corresponding effects. -/
def Agree (given : List (Value × Value)) (link : Link α β) (first : Action α)
    (second : Action β) : Prop :=
  ∀ left right, coupling.Stores left right →
    (∀ pair ∈ given, pair.1.Related (coupling.Same left right) pair.2) →
      coupling.Reached left right link (first left) (second right)

variable {coupling} {given : List (Value × Value)} {link : Link α β}

/-- Actions that leave the stores alone agree if they end alike. -/
theorem reached_of_ends {left right : Store} (stores : coupling.Stores left right)
    {first : Outcome α} {second : Outcome β} (ends : coupling.Ends left right link first second) :
    coupling.Reached left right link ⟨first, left, []⟩ ⟨second, right, []⟩ :=
  ⟨stores, fun _ _ same => same, .nil, ends⟩

theorem Ends.bind {left right : Store} {first : Outcome α} {second : Outcome β}
    {next : α → Outcome γ} {after : β → Outcome δ} {last : Link γ δ}
    (ends : coupling.Ends left right link first second)
    (rest : ∀ value other, link.Shape value other →
      coupling.Ends left right last (next value) (after other)) :
    coupling.Ends left right last (first >>= next) (second >>= after) := by
  cases ends with
  | ok shape held => exact rest _ _ shape
  | fault alike => exact .fault alike
  | breach => exact .breach

theorem Ends.bind_same {left right : Store} {first second : Outcome α}
    {next : α → Outcome γ} {after : α → Outcome δ} {last : Link γ δ}
    (ends : coupling.Ends left right (Link.same α) first second)
    (rest : ∀ value, coupling.Ends left right last (next value) (after value)) :
    coupling.Ends left right last (first >>= next) (second >>= after) := by
  refine ends.bind ?_
  intro value other same
  cases same
  exact rest value

theorem Ends.map {left right : Store} {first : Outcome α} {second : Outcome β}
    {change : α → γ} {twin : β → δ} {last : Link γ δ}
    (ends : coupling.Ends left right link first second)
    (rest : ∀ value other, link.Shape value other →
      coupling.Ends left right last (.ok (change value)) (.ok (twin other))) :
    coupling.Ends left right last (first.map change) (second.map twin) := by
  cases ends with
  | ok shape held => exact rest _ _ shape
  | fault alike => exact .fault alike
  | breach => exact .breach

/-- An outcome that names no instance corresponds to itself. -/
theorem ends_of_unnumbered {left right : Store} {link : Link α α} {outcome : Outcome α}
    (raise : ∀ cause, (∀ id, cause ≠ .unknownInstance id) →
      coupling.Faults left right cause cause)
    (unnumbered : Unnumbered outcome)
    (shape : ∀ value, outcome = .ok value → link.Shape value value)
    (held : ∀ value, link.held value value = []) :
    coupling.Ends left right link outcome outcome := by
  rcases outcome with (cause | _) | value
  · refine .fault (raise cause fun id same => ?_)
    subst same
    exact unnumbered id rfl
  · exact .breach
  · refine .ok (shape value rfl) fun pair member => ?_
    rw [held value] at member
    cases member

theorem agree_pure {value : α} {other : β} (shape : link.Shape value other)
    (held : link.held value other ⊆ given) :
    coupling.Agree given link (pure value) (pure other) := by
  intro left right stores givenRelated
  apply reached_of_ends stores
  exact .ok shape fun pair member => givenRelated pair (held member)

theorem agree_lift {first : Outcome α} {second : Outcome β}
    (ends : ∀ left right, coupling.Ends left right link first second) :
    coupling.Agree given link (Action.lift first) (Action.lift second) := by
  intro left right stores givenRelated
  exact reached_of_ends stores (ends left right)

theorem agree_query {ask : Store → Outcome α} {askOther : Store → Outcome β}
    (ends : ∀ left right, coupling.Stores left right →
      (∀ pair ∈ given, pair.1.Related (coupling.Same left right) pair.2) →
        coupling.Ends left right link (ask left) (askOther right)) :
    coupling.Agree given link (Action.query ask) (Action.query askOther) := by
  intro left right stores givenRelated
  exact reached_of_ends stores (ends left right stores givenRelated)

theorem Agree.weaken {fewer : List (Value × Value)} {first : Action α} {second : Action β}
    (agree : coupling.Agree fewer link first second) (included : fewer ⊆ given) :
    coupling.Agree given link first second := by
  intro left right stores givenRelated
  exact agree left right stores fun pair member => givenRelated pair (included member)

theorem Agree.drop_plain {value : Value} {first : Action α} {second : Action β}
    (agree : coupling.Agree ((value, value) :: given) link first second)
    (noObject : value.object? = none) : coupling.Agree given link first second := by
  intro left right stores givenRelated
  apply agree left right stores
  intro pair member
  rcases List.mem_cons.mp member with rfl | wasGiven
  · exact .plain noObject
  · exact givenRelated pair wasGiven

theorem Agree.bind {first : Action α} {second : Action β} {next : α → Action γ}
    {after : β → Action δ} {last : Link γ δ} (agree : coupling.Agree given link first second)
    (rest : ∀ value other, link.Shape value other →
      coupling.Agree (link.held value other ++ given) last (next value) (after other)) :
    coupling.Agree given last (first >>= next) (second >>= after) := by
  intro left right stores givenRelated
  have reached := agree left right stores givenRelated
  rcases firstRun : first left with ⟨firstResult, firstStore, firstEvents⟩
  rcases secondRun : second right with ⟨secondResult, secondStore, secondEvents⟩
  rw [firstRun, secondRun] at reached
  obtain ⟨storesAfter, grows, events, ends⟩ := reached
  cases ends with
  | fault alike =>
      rw [Action.run_bind_of_error firstRun, Action.run_bind_of_error secondRun]
      exact ⟨storesAfter, grows, events, .fault alike⟩
  | breach =>
      rw [Action.run_bind_of_error firstRun, Action.run_bind_of_error secondRun]
      exact ⟨storesAfter, grows, events, .breach⟩
  | @ok value other shape held =>
      rw [Action.run_bind_of_ok firstRun, Action.run_bind_of_ok secondRun]
      have heldAndGiven : ∀ pair ∈ link.held value other ++ given,
          pair.1.Related (coupling.Same firstStore secondStore) pair.2 := by
        intro pair member
        rcases List.mem_append.mp member with isHeld | wasGiven
        · exact held pair isHeld
        · exact (givenRelated pair wasGiven).mono grows
      obtain ⟨storesLast, growsLast, eventsLast, endsLast⟩ :=
        rest value other shape firstStore secondStore storesAfter heldAndGiven
      refine ⟨storesLast, fun id twin same => growsLast id twin (grows id twin same), ?_,
        endsLast⟩
      exact List.rel_append (events.imp fun event twin alike =>
        coupling.events_mono growsLast event twin alike) eventsLast

theorem Agree.bind_same {first second : Action α} {next : α → Action γ} {after : α → Action δ}
    {last : Link γ δ} (agree : coupling.Agree given (Link.same α) first second)
    (rest : ∀ value, coupling.Agree given last (next value) (after value)) :
    coupling.Agree given last (first >>= next) (second >>= after) := by
  refine agree.bind ?_
  intro value other same
  cases same
  exact rest value

/-- The steps of two dispatchers agree. -/
structure Respected (coupling : Coupling) (first second : Dispatcher) : Prop where
  limit : first.options.maxCallDepth = second.options.maxCallDepth
  raise : ∀ left right cause, (∀ id, cause ≠ .unknownInstance id) →
    coupling.Faults left right cause cause
  bodies : ∀ {method twin}, coupling.Methods method twin →
    method.signature = twin.signature ∧
      ∃ body, method.body = .expr body ∧ twin.body = .expr body
  domain : ∀ id twin, coupling.Agree [(.object id, .object twin)] (Link.same Domain)
    (Action.query fun store => store.domainOf id) (Action.query fun store => store.domainOf twin)
  classOf : ∀ id twin, coupling.Agree [(.object id, .object twin)] (Link.matching coupling.Classes)
    (first.classOf id) (second.classOf twin)
  read : ∀ id twin field, coupling.Agree [(.object id, .object twin)] Link.value
    (first.read id field) (second.read twin field)
  write : ∀ id twin field value other,
    coupling.Agree [(.object id, .object twin), (value, other)] (Link.same Unit)
      (first.write id field value) (second.write twin field other)
  allocate : ∀ cls domain, coupling.Agree [] Link.number (first.allocate cls domain)
    (second.allocate cls domain)
  resolve : ∀ left right id twin signature, coupling.Classes id twin →
    coupling.Ends left right (Link.matching coupling.Methods) (first.hierarchy.resolve id signature)
      (second.hierarchy.resolve twin signature)
  inherited : ∀ left right method twin signature, coupling.Methods method twin →
    coupling.Ends left right (Link.matching coupling.Methods)
      (first.hierarchy.inheritedMethod method.owner signature)
      (second.hierarchy.inheritedMethod twin.owner signature)
  announce : ∀ id twin cls other method methodTwin depth, coupling.Classes cls other →
    coupling.Methods method methodTwin →
      coupling.Agree [(.object id, .object twin)] (Link.same Unit)
        (first.announce id cls method depth) (second.announce twin other methodTwin depth)

/-- Two ways to run methods that agree on corresponding receivers, classes,
methods and arguments. -/
def Enters (coupling : Coupling) (first second : Enter) : Prop :=
  ∀ id twin cls other method methodTwin args otherArgs, coupling.Classes cls other →
    coupling.Methods method methodTwin → args.length = otherArgs.length →
      coupling.Agree ((.object id, .object twin) :: args.zip otherArgs) Link.value
        (first id cls method args) (second twin other methodTwin otherArgs)

end Coupling

namespace Dispatcher

open Coupling

variable {coupling : Coupling} {first second : Dispatcher}

theorem agree_dispatch (respected : coupling.Respected first second) {enter otherEnter : Enter}
    (enters : coupling.Enters enter otherEnter) (id twin : InstanceNo) (signature : Signature)
    (args otherArgs : List Value) (sameLength : args.length = otherArgs.length)
    {given : List (Value × Value)}
    (held : (.object id, .object twin) :: args.zip otherArgs ⊆ given) :
    coupling.Agree given Link.value (first.dispatch enter id signature args)
      (second.dispatch otherEnter twin signature otherArgs) := by
  obtain ⟨receiverGiven, argsGiven⟩ := List.cons_subset.mp held
  refine ((respected.classOf id twin).weaken (by simpa using receiverGiven)).bind ?_
  intro cls other classes
  refine (agree_lift fun left right =>
    respected.resolve left right cls other signature classes).bind ?_
  intro method methodTwin methods
  exact (enters id twin cls other method methodTwin args otherArgs classes methods
    sameLength).weaken held

end Dispatcher

namespace Frame

open Coupling

section Evaluation
variable {coupling : Coupling} {first second : Frame} {given : List (Value × Value)}
  (respected : coupling.Respected first.dispatcher second.dispatcher)
  (methods : coupling.Methods first.method second.method)
  (enters : coupling.Enters first.enter second.enter)

theorem agree_objectOf (respected : coupling.Respected first.dispatcher second.dispatcher)
    (value other : Value) (held : (value, other) ∈ given) :
    coupling.Agree given Link.number (objectOf value) (objectOf other) := by
  intro left right stores givenRelated
  cases givenRelated _ held with
  | object same =>
      apply reached_of_ends stores
      refine .ok trivial ?_
      intro pair member
      rw [List.mem_singleton.mp member]
      exact .object same
  | plain noObject =>
      simp only [objectOf, noObject]
      apply reached_of_ends stores
      exact .fault (respected.raise left right _ fun id impossible => by cases impossible)

include respected in
theorem agree_allocate (cls : String) (domain : Option Domain)
    (held : (.object first.receiver, .object second.receiver) ∈ given) :
    coupling.Agree given Link.number (first.allocate cls domain)
      (second.allocate cls domain) := by
  cases domain with
  | some domain => exact (respected.allocate cls domain).weaken (List.nil_subset _)
  | none =>
      refine ((respected.domain first.receiver second.receiver).weaken
        (by simpa using held)).bind_same ?_
      intro domain
      exact (respected.allocate cls domain).weaken (List.nil_subset _)

include respected methods enters

theorem agree_invokeSuper (method : String) (args otherArgs : List Value)
    (sameLength : args.length = otherArgs.length)
    (held : (.object first.receiver, .object second.receiver) :: args.zip otherArgs ⊆ given) :
    coupling.Agree given Link.value (first.invokeSuper method args)
      (second.invokeSuper method otherArgs) := by
  obtain ⟨receiverGiven, argsGiven⟩ := List.cons_subset.mp held
  rw [invokeSuper_eq, invokeSuper_eq, sameLength]
  refine (agree_lift fun left right =>
    respected.inherited left right first.method second.method _ methods).bind ?_
  intro inherited inheritedTwin inheritedMethods
  refine ((respected.classOf first.receiver second.receiver).weaken
    (by simpa [Link.matching] using receiverGiven)).bind ?_
  intro cls other classes
  exact (enters first.receiver second.receiver cls other inherited inheritedTwin args otherArgs
    classes inheritedMethods sameLength).weaken held

set_option linter.unusedSectionVars false

variable {args otherArgs : List Value} (sameLength : args.length = otherArgs.length)
include sameLength

mutual

theorem agree_eval {given : List (Value × Value)} (frameGiven :
    (.object first.receiver, .object second.receiver) :: args.zip otherArgs ⊆ given) :
    (expr : Expr) →
    coupling.Agree given Link.value (first.eval args expr) (second.eval otherArgs expr)
  | .lit value => by
      rw [eval, eval]
      intro left right stores givenRelated
      apply reached_of_ends stores
      refine .ok trivial ?_
      intro pair member
      rw [List.mem_singleton.mp member]
      exact .plain (Literal.object?_value value)
  | .this => by
      rw [eval, eval]
      apply agree_pure trivial
      intro pair member
      rw [List.mem_singleton.mp member]
      exact frameGiven List.mem_cons_self
  | .arg index => by
      rw [eval, eval]
      cases present : args[index]? with
      | some value =>
          have inside := (List.getElem?_eq_some_iff.mp present).1
          have otherPresent : otherArgs[index]? = some otherArgs[index] :=
            List.getElem?_eq_getElem (sameLength ▸ inside)
          rw [otherPresent]
          apply agree_pure trivial
          intro pair member
          rw [List.mem_singleton.mp member]
          apply frameGiven
          apply List.mem_cons_of_mem
          apply List.mem_of_getElem? (i := index)
          rw [List.getElem?_zip_eq_some]
          exact ⟨present, otherPresent⟩
      | none =>
          have otherAbsent : otherArgs[index]? = none := by
            rw [List.getElem?_eq_none_iff] at present ⊢
            omega
          rw [otherAbsent, (respected.bodies methods).1]
          apply agree_lift
          intro left right
          exact .fault (respected.raise left right _ fun id impossible => by cases impossible)
  | .new cls domain => by
      rw [eval, eval]
      refine (agree_allocate respected cls domain (frameGiven List.mem_cons_self)).bind ?_
      intro id twin _
      exact agree_pure trivial (List.subset_append_left _ _)
  | .get target field => by
      rw [eval, eval]
      refine (agree_eval frameGiven target).bind ?_
      intro value other _
      refine (agree_objectOf respected value other List.mem_cons_self).bind ?_
      intro id twin _
      exact (respected.read id twin field).weaken (List.subset_append_left _ _)
  | .set target field value => by
      rw [eval, eval]
      refine (agree_eval frameGiven target).bind ?_
      intro targetValue targetOther _
      refine (agree_objectOf respected targetValue targetOther List.mem_cons_self).bind ?_
      intro id twin _
      refine (agree_eval (List.Subset.trans frameGiven (by simp)) value).bind ?_
      intro stored storedTwin _
      refine ((respected.write id twin field stored storedTwin).weaken
        (by simp [Link.value, Link.number])).bind ?_
      intro _ _ _
      exact agree_pure trivial (by simp [Link.value])
  | .invoke target method operands => by
      rw [eval, eval]
      refine (agree_eval frameGiven target).bind ?_
      intro value other _
      refine (agree_objectOf respected value other List.mem_cons_self).bind ?_
      intro id twin _
      refine (agree_evalAll (List.Subset.trans frameGiven (by simp)) operands).bind ?_
      intro values others sameCount
      rw [invoke, invoke, sameCount]
      exact Dispatcher.agree_dispatch respected enters id twin _ values others sameCount
        (by simp [Link.values, Link.number])
  | .super method operands => by
      rw [eval, eval]
      refine (agree_evalAll frameGiven operands).bind ?_
      intro values others sameCount
      refine agree_invokeSuper respected methods enters method values others sameCount ?_
      exact List.cons_subset.mpr
        ⟨List.mem_append_right _ (frameGiven List.mem_cons_self), List.subset_append_left _ _⟩
  | .seq steps => by
      rw [eval, eval]
      exact (agree_evalLast .nil .nil frameGiven steps).drop_plain rfl

theorem agree_evalAll {given : List (Value × Value)} (frameGiven :
    (.object first.receiver, .object second.receiver) :: args.zip otherArgs ⊆ given) :
    (exprs : List Expr) →
    coupling.Agree given Link.values (first.evalAll args exprs) (second.evalAll otherArgs exprs)
  | [] => by
      rw [evalAll, evalAll]
      exact agree_pure rfl (by simp [Link.values])
  | expr :: rest => by
      rw [evalAll, evalAll]
      refine (agree_eval frameGiven expr).bind ?_
      intro value other _
      have stillGiven := List.Subset.trans frameGiven
        (List.subset_append_right (Link.value.held value other) given)
      refine (agree_evalAll stillGiven rest).bind ?_
      intro values others sameCount
      exact agree_pure (congrArg Nat.succ sameCount) (by simp [Link.values, Link.value])

theorem agree_evalLast (last otherLast : Value) {given : List (Value × Value)} (frameGiven :
    (.object first.receiver, .object second.receiver) :: args.zip otherArgs ⊆ given) :
    (exprs : List Expr) →
    coupling.Agree ((last, otherLast) :: given) Link.value (first.evalLast args last exprs)
      (second.evalLast otherArgs otherLast exprs)
  | [] => by
      rw [evalLast, evalLast]
      exact agree_pure trivial (by simp [Link.value])
  | expr :: rest => by
      rw [evalLast, evalLast]
      refine ((agree_eval frameGiven expr).weaken (by simp)).bind ?_
      intro value other _
      exact (agree_evalLast value other frameGiven rest).weaken (by simp [Link.value])

end

end Evaluation

end Frame

namespace Dispatcher

open Coupling

variable {coupling : Coupling} {first second : Dispatcher}
  (respected : coupling.Respected first second)
include respected

theorem agree_run (remaining : Nat) :
    coupling.Enters (first.run remaining) (second.run remaining) := by
  induction remaining with
  | zero =>
      intro id twin cls other method methodTwin args otherArgs classes methods sameLength
      simp only [run, Action.raise, refuse, respected.limit]
      apply agree_lift
      intro left right
      exact .fault (respected.raise left right _ fun id impossible => by cases impossible)
  | succ remaining ih =>
      intro id twin cls other method methodTwin args otherArgs classes methods sameLength
      obtain ⟨sameSignature, body, firstBody, secondBody⟩ := respected.bodies methods
      rw [run_succ_of_expr first remaining id cls method args firstBody,
        run_succ_of_expr second remaining twin other methodTwin otherArgs secondBody,
        respected.limit]
      refine ((respected.announce id twin cls other method methodTwin _ classes methods).weaken
        (by simp)).bind ?_
      intro _ _ _
      exact @Frame.agree_eval coupling (first.frameAt remaining id method)
        (second.frameAt remaining twin methodTwin) respected methods ih args otherArgs sameLength
        _ (List.Subset.refl _) body

theorem agree_invoke (reference otherReference : Reference) (signature : Signature)
    (args otherArgs : List Value) (sameLength : args.length = otherArgs.length)
    (permitted : ∀ left right, coupling.Ends left right (Link.same Unit)
      (first.hierarchy.permits reference.staticType signature)
      (second.hierarchy.permits otherReference.staticType signature)) :
    coupling.Agree
      ((.object reference.target, .object otherReference.target) :: args.zip otherArgs)
      Link.value (first.invoke reference signature args)
      (second.invoke otherReference signature otherArgs) := by
  rw [invoke_eq, invoke_eq]
  refine (agree_lift permitted).bind ?_
  intro _ _ _
  unfold runHost
  rw [respected.limit]
  exact agree_dispatch respected (agree_run respected _) reference.target otherReference.target
    signature args otherArgs sameLength (List.Subset.refl _)

end Dispatcher

/-! ## One dispatcher on two stores -/

namespace Coupling

/-- Two runs of one dispatcher differ in their stores only.  Classes and methods
are compared by equality, and the steps on single instances agree. -/
structure Within (coupling : Coupling) (dispatcher : Dispatcher) : Prop where
  classes : coupling.Classes = Eq
  methods : coupling.Methods = fun method twin => method = twin ∧ method.body.isExpr = true
  raise : ∀ left right cause, (∀ id, cause ≠ .unknownInstance id) →
    coupling.Faults left right cause cause
  report : ∀ left right id twin level cls method owner depth, coupling.Same left right id twin →
    coupling.Events left right (.dispatched level id cls method owner depth)
      (.dispatched level twin cls method owner depth)
  domain : ∀ id twin, coupling.Agree [(.object id, .object twin)] (Link.same Domain)
    (Action.query fun store => store.domainOf id) (Action.query fun store => store.domainOf twin)
  exact : ∀ id twin, coupling.Agree [(.object id, .object twin)] (Link.same ClassId)
    (Action.query fun store => store.classOf id) (Action.query fun store => store.classOf twin)
  read : ∀ id twin field, coupling.Agree [(.object id, .object twin)] Link.value
    (dispatcher.read id field) (dispatcher.read twin field)
  write : ∀ id twin field value other,
    coupling.Agree [(.object id, .object twin), (value, other)] (Link.same Unit)
      (dispatcher.write id field value) (dispatcher.write twin field other)
  allocate : ∀ cls domain, coupling.Agree [] Link.number (dispatcher.allocate cls domain)
    (dispatcher.allocate cls domain)

namespace Within

variable {coupling : Coupling} {hierarchy : Hierarchy} {options : Options}
  (within : coupling.Within ⟨hierarchy, options⟩)
include within

theorem ends_same {α : Type} {outcome : Outcome α} (unnumbered : Unnumbered outcome)
    (left right : Store) : coupling.Ends left right (Link.same α) outcome outcome :=
  ends_of_unnumbered (within.raise left right) unnumbered (fun _ _ => rfl) fun _ => rfl

theorem agree_classOf (id twin : InstanceNo) :
    coupling.Agree [(.object id, .object twin)] (Link.matching coupling.Classes)
      (Dispatcher.classOf ⟨hierarchy, options⟩ id)
      (Dispatcher.classOf ⟨hierarchy, options⟩ twin) := by
  rw [within.classes]
  refine (within.exact id twin).bind_same ?_
  intro cls
  refine (agree_lift (within.ends_same (unnumbered_get hierarchy.classes cls))).bind_same ?_
  intro view
  exact agree_pure rfl (List.nil_subset _)

theorem agree_announce (id twin : InstanceNo) (cls : ClassId) (method : Method) (depth : Nat) :
    coupling.Agree [(.object id, .object twin)] (Link.same Unit)
      (Dispatcher.announce ⟨hierarchy, options⟩ id cls method depth)
      (Dispatcher.announce ⟨hierarchy, options⟩ twin cls method depth) := by
  refine (agree_lift (within.ends_same (unnumbered_classAt hierarchy.classes cls))).bind_same ?_
  intro exact
  have ownerKnown := unnumbered_classAt hierarchy.classes method.owner
  refine (agree_lift (within.ends_same ownerKnown)).bind_same ?_
  intro owner left right stores given
  have same := (given (.object id, .object twin) (by simp)).same_of_object
  exact ⟨stores, fun _ _ before => before, .cons (within.report _ _ _ _ _ _ _ _ _ same) .nil,
    .ok rfl (List.forall_mem_nil _)⟩

/-- Methods that are found by what names no instance are the same on both sides. -/
theorem ends_method {outcome : Outcome Method} (unnumbered : Unnumbered outcome)
    (isExpr : ∀ method, outcome = .ok method → method.body.isExpr = true) (left right : Store) :
    coupling.Ends left right (Link.matching coupling.Methods) outcome outcome := by
  refine ends_of_unnumbered (within.raise left right) unnumbered ?_ fun _ => rfl
  intro method found
  change coupling.Methods method method
  rw [within.methods]
  exact ⟨rfl, isExpr method found⟩

theorem respected {decls : List ClassDecl} (flat : hierarchy.Flat decls)
    (plain : hierarchy.Plain) :
    coupling.Respected ⟨hierarchy, options⟩ ⟨hierarchy, options⟩ where
  limit := rfl
  raise := within.raise
  bodies := by
    rw [within.methods]
    rintro method _ ⟨rfl, isExpr⟩
    obtain ⟨body, isBody⟩ := exists_expr_of_isExpr isExpr
    exact ⟨rfl, body, isBody, isBody⟩
  domain := within.domain
  classOf := within.agree_classOf
  read := within.read
  write := within.write
  allocate := within.allocate
  resolve left right id twin signature same := by
    rw [within.classes] at same
    subst same
    exact within.ends_method (unnumbered_resolve hierarchy id signature)
      (fun method => flat.isExpr_of_resolve plain) left right
  inherited left right method twin signature same := by
    rw [within.methods] at same
    obtain ⟨rfl, _⟩ := same
    refine within.ends_method (unnumbered_inheritedMethod hierarchy method.owner signature) ?_
      left right
    intro inherited run
    obtain ⟨parent, resolved⟩ := Hierarchy.resolve_of_inheritedMethod run
    exact flat.isExpr_of_resolve plain resolved
  announce id twin cls other method methodTwin depth sameClass sameMethod := by
    rw [within.classes] at sameClass
    rw [within.methods] at sameMethod
    subst sameClass
    obtain ⟨rfl, _⟩ := sameMethod
    exact within.agree_announce id twin cls method depth

end Within

end Coupling

end Lineage
