import Lineage.Proofs.Call.Raising
import Lineage.Proofs.Call.Unbroken
import Lineage.Proofs.Session.Failures
import Lineage.Proofs.Session.Typing

/-!
# Which faults a session ends with

The faults that refuse definitions are those of `build` and `define`, and no other request of
a session ends with one of them, as long as the bodies of the host that it runs make up no
faults of the engine (`Session.Honest`).  Where no body is of the host at all, each fault of
a call is one of seven and says what is the case (`Justified`): what a table lacks, what is not
in the store, what an expression was given, or the limit of the dispatcher.
-/

set_option autoImplicit false

namespace Lineage

/-! ## Faults that refuse definitions -/

theorem sparesUse_constructive : SparesUse Failure.Constructive where
  tables := by
    rintro _ ofTable ⟨cause, rfl, isConstruction⟩
    cases ofTable <;> cases isConstruction
  views := by
    rintro cls staticType ⟨_, same, isConstruction⟩
    cases same
    cases isConstruction

theorem sparesMissing_constructive : SparesMissing Failure.Constructive := by
  rintro id ⟨_, same, isConstruction⟩
  cases same
  cases isConstruction

theorem not_constructive_breach : ¬ Failure.Constructive .breach := nofun

/-- The reason why a request of a method is refused is not about definitions. -/
theorem Dispatcher.Refuses.not_constructive {dispatcher : Dispatcher} {store : Store}
    {failure : Failure} (refuses : dispatcher.Refuses store failure) :
    ¬ failure.Constructive := by
  rintro ⟨cause, rfl, isConstruction⟩
  rcases refuses with (ofClasses | _ | _) | same
  · cases ofClasses <;> cases isConstruction
  · cases isConstruction
  · cases isConstruction
  · cases same
    cases isConstruction

section Calls
variable {dispatcher : Dispatcher} {decls : List ClassDecl}
  (flat : dispatcher.hierarchy.Flat decls) {reference : Reference} {signature : Signature}
  {args : List Value} {store : Store}
include flat

/-- A call ends with no fault that refuses a definition, unless a body of the host makes one
up. -/
theorem spares_invoke_constructive
    (honest : ∀ running : Activation, running.Occurs dispatcher reference signature args store →
      running.method.body.isExpr = false → running.Honest dispatcher) :
    Spares Failure.Constructive (dispatcher.invoke reference signature args store).result := by
  rintro _ ends ⟨cause, rfl, isConstruction⟩
  obtain ⟨_, refuses⟩ | ⟨raiser, moment, occurs, raises⟩ := Activation.refused_or_raised flat ends
  · exact refuses.not_constructive ⟨cause, rfl, isConstruction⟩
  · cases raises with
    | refused reaches isRefused =>
        have refuses := Activation.refuses_of_refused flat (occurs.stands flat) reaches isRefused
        exact refuses.not_constructive ⟨cause, rfl, isConstruction⟩
    | own reaches notGiven =>
        cases isExpr : raiser.method.body.isExpr with
        | true =>
            cases Activation.ending_of_expr isExpr reaches notGiven <;> cases isConstruction
        | false => exact notGiven (honest raiser occurs isExpr _ _ reaches)
    | fails reaches => cases isConstruction

end Calls

/-! ## Stores whose instances have the slots of their classes -/

/-- Every instance of a class of the table has the slots of that class. -/
def Store.Fitting (store : Store) (table : ClassTable) : Prop :=
  ∀ id inst cls, store.find? id = some inst → table.find? inst.cls = some cls →
    Fits table inst cls

theorem Store.Fitting.of_course {table : ClassTable} {decls : List ClassDecl}
    (holds : table.Holds decls) {start reached : Store} {events : List Event}
    (fitting : start.Fitting table) (course : start.Course table events reached) :
    reached.Fitting table := by
  intro id inst cls live found
  rcases course.origin holds live with ⟨old, wasLive, same⟩ | ⟨_, own, fits, _⟩
  · exact (fitting id old cls wasLive (same.cls ▸ found)).sameShape same
  · cases fits.found.symm.trans found
    exact fits

/-- A field that has no position in an instance is declared by no class of its chain. -/
theorem Fits.undeclared {table : ClassTable} {decls : List ClassDecl} {cls : Class}
    {chain : List Class} {inst : Instance} (holds : table.Holds decls)
    (chained : table.Chain cls chain) (fits : Fits table inst cls) {field : String}
    (unplaced : inst.position cls field = refuse (.unknownField cls.name field)) :
    ∀ upper ∈ chain, upper.declaresField field = false := by
  obtain ⟨rest, shape⟩ := chained.eq_cons
  have inChain : cls ∈ chain := shape ▸ List.mem_cons_self
  have decided := fits.decided_position holds chained inChain chained field
  cases somewhere : chain.any (·.declaresField field) with
  | true =>
      rw [somewhere] at decided
      obtain ⟨slot, placed⟩ := decided
      cases unplaced.symm.trans placed
  | false => simpa using somewhere

/-! ## Faults where no body is of the host -/

/-- The faults of a call that runs these activations and leaves this store, each with what is
the case at its end. -/
inductive Dispatcher.Justified (dispatcher : Dispatcher) (Occurs : Activation → Prop)
    (left : Store) : Fault → Prop where
  | unknownClass (cls : String) : Justified dispatcher Occurs left (.unknownClass cls)
  /-- The exact class of a live instance is named, and its chain does not declare the field. -/
  | unknownField {id : InstanceNo} {inst : Instance} {exact : Class} {chain : List Class}
      {field : String} (live : left.find? id = some inst)
      (isExact : dispatcher.hierarchy.classes.find? inst.cls = some exact)
      (isChain : dispatcher.hierarchy.classes.ancestors exact.id = .ok chain)
      (undeclared : ∀ cls ∈ chain, cls.declaresField field = false) :
      Justified dispatcher Occurs left (.unknownField exact.name field)
  | noSuchMethod (cls : String) (signature : Signature) :
      Justified dispatcher Occurs left (.noSuchMethod cls signature)
  /-- The instance is not there, so it is the receiver of no method that runs or ran. -/
  | unknownInstance {id : InstanceNo} (dead : left.find? id = none)
      (noReceiver : ∀ running, Occurs running → running.receiver ≠ id) :
      Justified dispatcher Occurs left (.unknownInstance id)
  | notAnObject {found : Kind} (other : found ≠ .object) :
      Justified dispatcher Occurs left (.notAnObject found)
  /-- The method that raised it has no more arguments than that. -/
  | argumentOutOfRange {index : Nat} {raiser : Activation} (occurs : Occurs raiser)
      (raises : raiser.Raises dispatcher (.argumentOutOfRange index raiser.method.signature) left)
      (beyond : raiser.args.length ≤ index) :
      Justified dispatcher Occurs left (.argumentOutOfRange index raiser.method.signature)
  | callDepthExceeded :
      Justified dispatcher Occurs left (.callDepthExceeded dispatcher.options.maxCallDepth)

section Plain
variable {dispatcher : Dispatcher} {decls : List ClassDecl}
  (flat : dispatcher.hierarchy.Flat decls) {reference : Reference} {signature : Signature}
  {args : List Value} {store : Store}
include flat

/-- A refusal with which a call ends is justified. -/
theorem justified_of_refuses (fitting : store.Fitting dispatcher.hierarchy.classes)
    {fault : Fault}
    (refuses : dispatcher.Refuses (dispatcher.invoke reference signature args store).store
      (.fault fault)) :
    dispatcher.Justified (Activation.Occurs dispatcher reference signature args store)
      (dispatcher.invoke reference signature args store).store fault := by
  rcases refuses with refuses | tooDeep
  · cases refuses with
    | ofClasses ofClasses =>
        cases ofClasses with
        | unknownClass cls => exact .unknownClass cls
        | noSuchMethod cls signature => exact .noSuchMethod cls signature
    | unknownInstance dead =>
        refine .unknownInstance dead ?_
        rintro running occurs rfl
        obtain ⟨inst, live⟩ := occurs.live flat
        cases dead.symm.trans live
    | @unknownField id inst exact field live isExact unplaced =>
        have course := Dispatcher.through_invoke flat reference signature args store
        have fits := fitting.of_course flat.holds course id inst exact live isExact
        obtain ⟨chain, chained⟩ := flat.holds.exists_chain isExact
        have isChain := chained.ancestors_eq flat.holds (fits.own flat.holds)
        exact .unknownField live isExact isChain (fits.undeclared flat.holds chained unplaced)
  · cases tooDeep
    exact .callDepthExceeded

/-- Where no body is of the host, every fault of a call is justified. -/
theorem justified_of_invoke (plain : dispatcher.hierarchy.Plain)
    (fitting : store.Fitting dispatcher.hierarchy.classes) {fault : Fault}
    (ends : (dispatcher.invoke reference signature args store).result = refuse fault) :
    dispatcher.Justified (Activation.Occurs dispatcher reference signature args store)
      (dispatcher.invoke reference signature args store).store fault := by
  have isExpr : ∀ running : Activation,
      running.Occurs dispatcher reference signature args store →
        running.method.body.isExpr = true := by
    intro running occurs
    have stands := occurs.stands flat
    exact plain.isExpr_of_find? stands.entered.ownerFound stands.declared
  obtain ⟨refused, refuses⟩ | ⟨raiser, moment, occurs, raises⟩ :=
    Activation.refused_or_raised flat ends
  · apply justified_of_refuses flat fitting
    rw [refused]
    exact refuses
  · have passesOn : ∀ running : Activation,
        running.Occurs dispatcher reference signature args store → running.PassesOn dispatcher :=
      fun running occurs => Activation.passesOn_of_expr (isExpr running occurs)
    obtain ⟨raiserEnds, isMoment⟩ := raises.effect_eq (passesOn raiser occurs)
    have isLeft := (occurs.crosses flat passesOn raiserEnds).2.trans isMoment
    cases raises with
    | refused reaches isRefused =>
        apply justified_of_refuses flat fitting
        rw [isLeft]
        exact Activation.refuses_of_refused flat (occurs.stands flat) reaches isRefused
    | own reaches notGiven =>
        have ending := Activation.ending_of_expr (isExpr raiser occurs) reaches notGiven
        cases ending with
        | notAnObject other => exact .notAnObject other
        | argumentOutOfRange beyond =>
            refine .argumentOutOfRange occurs ?_ beyond
            rw [isLeft]
            exact .own reaches notGiven
    | fails reaches =>
        exact absurd reaches (Activation.not_fail_of_expr (isExpr raiser occurs) _ _)

end Plain

/-! ## Sessions -/

namespace Session

/-- The bodies of the host that run in what the command calls end with no fault of the engine
but those that they were given. -/
def Honest (session : Session) (command : Command) : Prop :=
  ∀ dispatcher reference signature args store,
    session.Calls command dispatcher reference signature args store →
    ∀ running : Activation, running.Occurs dispatcher reference signature args store →
      running.method.body.isExpr = false → running.Honest dispatcher

/-- The instances of the stores of a session have the slots of their classes. -/
theorem fitting_of_classes (commands : List Command) {handle table : Handle} {store : Store}
    {classes : ClassTable} (isStore : held (empty.after commands).stores handle = .ok store)
    (isTable : (empty.after commands).classes table = .ok classes) : store.Fitting classes := by
  intro id inst cls live found
  obtain ⟨other, own, owns, _⟩ := exists_owns commands isStore live
  have owned : classes.owns inst.cls = true := by
    rw [ClassTable.owns, found]
    rfl
  have same := owns.isTable
  rw [← owns.only table classes isTable owned, isTable] at same
  cases same
  have fits := owns.fits
  cases fits.found.symm.trans found
  exact fits

/-- A command that defines classes fails with nothing else than the refusal of one. -/
theorem Sound.definitional_perform {session : Session} (sound : session.Sound) (command : Command)
    (defines : command.defines = true) :
    (session.perform command).reply.Spares fun failure => ¬ failure.Constructive := by
  cases command with
  | build decls => exact session.spares_build (fun _ => not_not_intro) decls
  | define table decl => exact sound.spares_define (fun _ => not_not_intro) table decl
  | _ => cases defines

/-- In every session a definition that is refused is refused with a fault about definitions,
and nothing else ends with one, if the bodies of the host that it runs make up no faults.  Where
no body of a hierarchy is of the host, a call that fails ends with a fault, and each says what
is the case. -/
theorem faults_never_mix (commands : List Command) :
    let session := empty.after commands
    (∀ command failure, (session.perform command).reply = .error (.failed failure) →
      command.defines = true → ∃ cause, failure = .fault cause ∧ cause.isConstruction = true) ∧
    (∀ command cause, (session.perform command).reply = .error (.failed (.fault cause)) →
      command.defines = false → session.Honest command → cause.isConstruction = false) ∧
    (∀ query cause, session.ask query = .error (.failed (.fault cause)) →
      cause.isConstruction = false) ∧
    (∀ handle home dispatcher store, session.dispatcher handle = .ok (dispatcher, home) →
      held session.stores home = .ok store → dispatcher.hierarchy.Plain →
      ∀ reference signature args failure,
        let run := dispatcher.invoke reference signature args store
        run.result = .error failure → ∃ cause, failure = .fault cause ∧
          dispatcher.Justified (Activation.Occurs dispatcher reference signature args store)
            run.store cause) := by
  intro session
  have sound : session.Sound := (sound_empty.evolves_after commands).sound
  have notConstruction : ∀ cause, ¬ (Failure.fault cause).Constructive →
      cause.isConstruction = false := by
    intro cause plain
    rw [Bool.eq_false_iff]
    exact fun isConstruction => plain ⟨cause, rfl, isConstruction⟩
  refine ⟨?_, ?_, ?_, ?_⟩
  · intro command failure failed defines
    exact not_not.mp (sound.definitional_perform command defines failure failed)
  · intro command cause failed noDefinition honest
    apply notConstruction
    refine sound.spares_perform sparesUse_constructive sparesMissing_constructive command
      noDefinition ?_ _ failed
    intro dispatcher reference signature args store calls
    obtain ⟨decls, flat⟩ := sound.exists_flat_of_calls calls
    exact spares_invoke_constructive flat (honest _ _ _ _ _ calls)
  · intro query cause failed
    apply notConstruction
    refine sound.spares_query sparesUse_constructive query (.inr not_constructive_breach) ?_ _
      failed
    intro handle id _ store _
    exact sparesMissing_constructive.serves store id
  · intro handle home dispatcher store found isStore plain reference signature args failure run
      failed
    obtain ⟨decls, flat⟩ := sound.exists_flat_of_dispatcher found
    obtain ⟨table, _, isClosed⟩ := (session.dispatcher_eq_ok_iff handle dispatcher home).mp found
    have isTable := (session.classes_eq_ok_iff table dispatcher.hierarchy.classes).mpr
      ⟨_, isClosed, rfl⟩
    cases failure with
    | breach =>
        have unbroken := Dispatcher.unbroken_invoke flat dispatcher.options reference signature args
        exact absurd rfl (unbroken store _ failed)
    | fault cause =>
        exact ⟨cause, rfl,
          justified_of_invoke flat plain (fitting_of_classes commands isStore isTable) failed⟩

/-- A class without its parent is refused for that, a press that jams and a number that nobody
has are not, and a leaf that links to nothing misses its argument two methods deep. -/
theorem press_and_leaf_fault :
    let commands : List Command :=
      [.build [pressDecl, rotaryDecl], .build sampleDecls, .openStore, .attach 1 1 {},
        .attach 2 1 {}, .dispatcherAllocate 1 "Rotary" .managed,
        .dispatcherAllocate 2 "Leaf" .managed, .openTable]
    let session := empty.after commands
    let stray : Command := .define 3 { name := "Stray", parent := some "Press" }
    let start : Command := .send 1 1 "start" []
    let orphaned : Fault := .unknownParent "Stray" "Press"
    let jammed : Fault := .native "Press" ⟨"print", 0⟩ "paper jam"
    let missing : Fault := .argumentOutOfRange 0 ⟨"link", 1⟩
    (session.perform stray).reply = .error (.failed (.fault orphaned)) ∧
    orphaned.isConstruction = true ∧
    session.Honest start ∧ (session.perform start).reply = .error (.failed (.fault jammed)) ∧
    jammed.isConstruction = false ∧
    session.ask (.classOf 1 9) = .error (.failed (.fault (.unknownInstance 9))) ∧
    (Fault.unknownInstance 9).isConstruction = false ∧
    ∃ dispatcher store, session.dispatcher 2 = .ok (dispatcher, 1) ∧
      held session.stores 1 = .ok store ∧ dispatcher.hierarchy.Plain ∧
      let run := dispatcher.invoke ⟨2, ⟨2, 1⟩⟩ ⟨"link", 1⟩ [] store
      run.result = refuse missing ∧ dispatcher.Justified
        (Activation.Occurs dispatcher ⟨2, ⟨2, 1⟩⟩ ⟨"link", 1⟩ [] store) run.store missing := by
  intro commands session stray start orphaned jammed missing
  obtain ⟨definitions, others, queries, justified⟩ := faults_never_mix commands
  have honest : session.Honest start := by
    intro dispatcher reference signature args store calls running occurs isNative
    have sends : session.Calls (.send 1 1 "start" []) dispatcher reference signature args store :=
      calls
    cases sends with
    | send found =>
        cases found
        obtain ⟨decls, flat⟩ := pressHierarchy_sealed.exists_flat
        exact Activation.honest_of_relays
          (Activation.relays_of_native pressHierarchy_relays (occurs.stands flat) isNative)
  have refused : (session.perform stray).reply = .error (.failed (.fault orphaned)) := rfl
  have jams : (session.perform start).reply = .error (.failed (.fault jammed)) := rfl
  have nobody : session.ask (.classOf 1 9) = .error (.failed (.fault (.unknownInstance 9))) := rfl
  obtain ⟨_, ⟨⟩, isConstruction⟩ := definitions stray _ refused rfl
  refine ⟨refused, isConstruction, honest, jams, others start _ jams rfl honest, nobody,
    queries _ _ nobody, _, _, rfl, rfl, by decide, rfl, ?_⟩
  obtain ⟨_, ⟨⟩, isCase⟩ := justified 2 1 _ _ rfl rfl (by decide) ⟨2, ⟨2, 1⟩⟩ ⟨"link", 1⟩ [] _ rfl
  exact isCase

end Session

end Lineage
