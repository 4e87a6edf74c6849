import Lineage.Proofs.Call.Frames

/-!
# Faults cross the methods that run

A fault is raised in one activation (`Raises`): a request is refused before it starts a
method, or the body ends with a fault of its own, or a body of the host fails for a reason of
its own and is named in the fault.  From there it goes outwards, because an activation that
passes on what it is given (`PassesOn`) ends as the one does that it started
(`crosses_starts`).  Expressions always pass on (`passesOn_of_expr`).  So where bodies of the
host do too, the fault and the store of the raising activation are those of the whole call,
and a body that fails for a reason of its own was given no fault before
(`faults_cross_frames`).  In the other direction a fault with which a call ends has been
raised somewhere, whatever bodies do (`exists_raiser`).
-/

set_option autoImplicit false

namespace Lineage

open Native (Program Request)
open Relation (ReflTransGen)

/-- What is left of a body is not its end with a fault of the engine. -/
def Native.Program.NoRaise (program : Program Value) : Prop := ∀ fault, program ≠ .raise fault

/-- Every body that the host provides ends with the first fault that it is given, and with no
other fault of the engine. -/
def Hierarchy.Relays (hierarchy : Hierarchy) : Prop :=
  ∀ cls ∈ hierarchy.classes.classes.toList, ∀ method ∈ cls.methods, ∀ native,
    method.body = .native native → ∀ view args, (native view args).Relays Program.NoRaise

/-- No request is refused in the name of a body of the host. -/
theorem Dispatcher.not_refuses_native (dispatcher : Dispatcher) (store : Store) (cls : String)
    (signature : Signature) (cause : String) :
    ¬ dispatcher.Refuses store (.fault (.native cls signature cause)) := by
  rintro (refuses | same)
  · cases refuses with
    | ofClasses ofClasses => cases ofClasses
  · cases same

namespace Activation

section Running
variable (dispatcher : Dispatcher) (running : Activation)

/-- Some request of the activation ends with the fault. -/
def Given (fault : Fault) : Prop :=
  ∃ request next store, running.Reaches dispatcher (.ask request next) store ∧
    ((running.frame dispatcher).answer request store).result = refuse fault

/-- The activation ends with any fault that it is given, as it is. -/
def PassesOn : Prop :=
  ∀ request next store fault, running.Reaches dispatcher (.ask request next) store →
    ((running.frame dispatcher).answer request store).result = refuse fault →
      next (.error fault) = .raise fault

/-- Of the faults of the engine the body ends only with those that it was given. -/
def Honest : Prop :=
  ∀ fault store, running.Reaches dispatcher (.raise fault) store → running.Given dispatcher fault

/-- The fault comes into being in this activation, on this store. -/
inductive Raises : Fault → Store → Prop where
  /-- A request is refused, and no method has been started for it. -/
  | refused {request : Request} {next : Except Fault request.Reply → Program Value}
      {fault : Fault} {store : Store}
      (reaches : running.Reaches dispatcher (.ask request next) store)
      (isRefused : (running.frame dispatcher).answer request store = ⟨refuse fault, store, []⟩) :
      Raises fault store
  /-- The body ends with a fault of the engine that it was not given. -/
  | own {fault : Fault} {store : Store} (reaches : running.Reaches dispatcher (.raise fault) store)
      (notGiven : ¬ running.Given dispatcher fault) : Raises fault store
  /-- The body fails for a reason of its own, and is named with it. -/
  | fails {cause : String} {store : Store}
      (reaches : running.Reaches dispatcher (.fail cause) store) :
      Raises (.native running.owner.name running.method.signature cause) store

end Running

variable {dispatcher : Dispatcher} {decls : List ClassDecl} {running called : Activation}

/-! ## From a point to the end -/

section Attempts
variable {α : Type} {action : Action α} {store reached : Store} {fault : Fault}
  {events : List Event}

/-- A fault is handed over where the action ends with it. -/
theorem attempt_of_fault (isFault : (action store).result = refuse fault) :
    Action.attempt action store =
      ⟨.ok (.error fault), (action store).store, (action store).events⟩ := by
  rcases run : action store with ⟨result, reached, events⟩
  rw [run] at isFault
  cases isFault
  rw [Action.attempt, run]

theorem fault_of_attempt
    (run : Action.attempt action store = ⟨.ok (.error fault), reached, events⟩) :
    (action store).result = refuse fault := by
  rcases ran : action store with ⟨(_ | _) | _, _, _⟩ <;> rw [Action.attempt, ran] at run <;>
    cases run
  rfl

/-- So an attempt ends with no fault itself. -/
theorem faultless_attempt (action : Action α) (store : Store) :
    Faultless (Action.attempt action store).result := by
  unfold Action.attempt
  rcases action store with ⟨(_ | _) | _, _, _⟩
  · exact faultless_ok _
  · exact faultless_breach
  · exact faultless_ok _

end Attempts

/-- From every point on the activation does what is left of its program. -/
theorem Reaches.effect_eq {program : Program Value} {store : Store}
    (reaches : running.Reaches dispatcher program store) :
    let rest := (running.frame dispatcher).perform running.owner.name program store
    (running.effect dispatcher).result = rest.result ∧
      (running.effect dispatcher).store = rest.store := by
  induction reaches with
  | start =>
      rw [effect, Frame.runBody_eq_perform]
      exact ⟨rfl, rfl⟩
  | @reply request next reply store reached events _ run ih =>
      have goesOn : (running.frame dispatcher).perform running.owner.name (.ask request next)
          store = _ := Action.run_bind_of_ok run _
      rw [goesOn] at ih
      exact ih

/-- Where the body ends with a fault of the engine, this is how the activation ends. -/
theorem Reaches.effect_of_raise {fault : Fault} {store : Store}
    (reaches : running.Reaches dispatcher (.raise fault) store) :
    (running.effect dispatcher).result = refuse fault ∧
      (running.effect dispatcher).store = store :=
  reaches.effect_eq

/-- Where it fails for a reason of its own, the class that declares the method is named. -/
theorem Reaches.effect_of_fail {cause : String} {store : Store}
    (reaches : running.Reaches dispatcher (.fail cause) store) :
    (running.effect dispatcher).result =
        refuse (.native running.owner.name running.method.signature cause) ∧
      (running.effect dispatcher).store = store :=
  reaches.effect_eq

/-- An activation that is given a fault and passes it on ends with it, on the store that the
request left. -/
theorem PassesOn.effect_eq (passesOn : running.PassesOn dispatcher) {request : Request}
    {next : Except Fault request.Reply → Program Value} {store : Store} {fault : Fault}
    (reaches : running.Reaches dispatcher (.ask request next) store)
    (isGiven : ((running.frame dispatcher).answer request store).result = refuse fault) :
    (running.effect dispatcher).result = refuse fault ∧
      (running.effect dispatcher).store =
        ((running.frame dispatcher).answer request store).store := by
  have reachesNext := reaches.reply (attempt_of_fault isGiven)
  rw [passesOn request next store fault reaches isGiven] at reachesNext
  exact reachesNext.effect_of_raise

/-- A fault with which what is left of the program ends is that of its last point. -/
theorem Reaches.exists_last (program : Program Value) {store : Store} {fault : Fault}
    (reaches : running.Reaches dispatcher program store)
    (ends : ((running.frame dispatcher).perform running.owner.name program store).result =
      refuse fault) :
    (∃ last, running.Reaches dispatcher (.raise fault) last) ∨
      ∃ cause last, running.Reaches dispatcher (.fail cause) last ∧
        fault = .native running.owner.name running.method.signature cause := by
  induction program generalizing store with
  | done value => cases ends
  | fail cause =>
      cases ends
      exact .inr ⟨cause, store, reaches, rfl⟩
  | raise raised =>
      cases ends
      exact .inl ⟨store, reaches⟩
  | ask request next ih =>
      rcases run : Action.attempt ((running.frame dispatcher).answer request) store with
        ⟨failure | reply, reached, events⟩
      · have stops : (running.frame dispatcher).perform running.owner.name (.ask request next)
            store = _ := Action.run_bind_of_error run _
        have faultless := faultless_attempt ((running.frame dispatcher).answer request) store
        rw [stops] at ends
        rw [run] at faultless
        cases ends
        exact absurd rfl (faultless fault)
      · have goesOn : (running.frame dispatcher).perform running.owner.name (.ask request next)
            store = _ := Action.run_bind_of_ok run _
        rw [goesOn] at ends
        exact ih reply (reaches.reply run) ends

/-! ## Which activations pass on what they are given -/

/-- What a program that ends with the first fault comes to is such a program, or the end with
a fault that it was given. -/
theorem relays_or_given {ends : Program Value → Prop}
    (relays : (running.program dispatcher).Relays ends) {program : Program Value} {store : Store}
    (reaches : running.Reaches dispatcher program store) :
    program.Relays ends ∨ ∃ fault, running.Given dispatcher fault ∧ program = .raise fault := by
  induction reaches with
  | start => exact .inl relays
  | @reply request next reply store reached events before run ih =>
      obtain ⟨passes, goesOn⟩ | ⟨_, _, impossible⟩ := ih
      · cases reply with
        | error fault => exact .inr ⟨fault, ⟨_, _, _, before, fault_of_attempt run⟩, passes fault⟩
        | ok reply => exact .inl (goesOn reply)
      · cases impossible

theorem passesOn_of_relays {ends : Program Value → Prop}
    (relays : (running.program dispatcher).Relays ends) : running.PassesOn dispatcher := by
  intro request next store fault reaches _
  obtain ⟨passes, _⟩ | ⟨_, _, impossible⟩ := relays_or_given relays reaches
  · exact passes fault
  · cases impossible

section Expressions
variable (isExpr : running.method.body.isExpr = true)
include isExpr

theorem relays_of_expr : (running.program dispatcher).Relays
    (Expr.Ending running.method.signature running.args) := by
  obtain ⟨body, isBody⟩ := exists_expr_of_isExpr isExpr
  have isProgram : running.program dispatcher =
      body.program running.receiver running.method.signature running.args .done := by
    simp only [program, Frame.program, frame, isBody]
  rw [isProgram]
  exact relays_program running.receiver body fun value => .done value

theorem passesOn_of_expr : running.PassesOn dispatcher := passesOn_of_relays (relays_of_expr isExpr)

/-- An expression ends with faults that it was given, or with those of evaluation. -/
theorem ending_of_expr {fault : Fault} {store : Store}
    (reaches : running.Reaches dispatcher (.raise fault) store)
    (notGiven : ¬ running.Given dispatcher fault) :
    Expr.Ending running.method.signature running.args (.raise fault) := by
  obtain ending | ⟨_, isGiven, same⟩ := relays_or_given (relays_of_expr isExpr) reaches
  · exact ending
  · cases same
    exact absurd isGiven notGiven

/-- No expression fails for a reason of its own. -/
theorem not_fail_of_expr (cause : String) (store : Store) :
    ¬ running.Reaches dispatcher (.fail cause) store := by
  intro reaches
  obtain ending | ⟨_, _, impossible⟩ := relays_or_given (relays_of_expr isExpr) reaches
  · cases ending
  · cases impossible

end Expressions

/-- What fails for a reason of its own is a body of the host. -/
theorem isNative_of_fail {cause : String} {store : Store}
    (reaches : running.Reaches dispatcher (.fail cause) store) :
    running.method.body.isExpr = false := by
  rw [Bool.eq_false_iff]
  exact fun isExpr => not_fail_of_expr isExpr cause store reaches

theorem honest_of_relays (relays : (running.program dispatcher).Relays Program.NoRaise) :
    running.Honest dispatcher := by
  intro fault store reaches
  obtain ending | ⟨_, isGiven, same⟩ := relays_or_given relays reaches
  · exact absurd rfl (ending fault)
  · cases same
    exact isGiven

theorem relays_of_native (relays : dispatcher.hierarchy.Relays)
    (stands : running.Stands dispatcher) (isNative : running.method.body.isExpr = false) :
    (running.program dispatcher).Relays Program.NoRaise := by
  have stored := ((dispatcher.hierarchy.classes.find?_eq_some_iff _ _).mp
    stands.entered.ownerFound).2
  have listed := List.mem_of_getElem? (Array.getElem?_toList.trans stored)
  cases isBody : running.method.body with
  | expr body =>
      rw [isBody] at isNative
      cases isNative
  | native native =>
      have isProgram : running.program dispatcher =
          native ((running.frame dispatcher).view running.owner.name) running.args := by
        simp only [program, Frame.program, frame, isBody]
      rw [isProgram]
      exact relays running.owner listed running.method stands.declared native isBody _ _

/-! ## One fault only -/

/-- From one point of the activation to the next. -/
inductive Next (dispatcher : Dispatcher) (running : Activation) :
    Program Value × Store → Program Value × Store → Prop where
  | reply {request : Request} {next : Except Fault request.Reply → Program Value}
      {reply : Except Fault request.Reply} {store reached : Store} {events : List Event}
      (run : Action.attempt ((running.frame dispatcher).answer request) store =
        ⟨.ok reply, reached, events⟩) :
      Next dispatcher running (.ask request next, store) (next reply, reached)

theorem next_rightUnique : Relator.RightUnique (Next dispatcher running) := by
  intro point one other next again
  cases next with
  | reply run =>
      cases again with
      | reply sameRun =>
          rw [run] at sameRun
          cases sameRun
          rfl

theorem Reaches.chain {program : Program Value} {store : Store}
    (reaches : running.Reaches dispatcher program store) :
    ReflTransGen (Next dispatcher running) (running.program dispatcher, running.start)
      (program, store) := by
  induction reaches with
  | start => exact .refl
  | reply _ run ih => exact ih.tail (.reply run)

/-- A body that passes on what it is given and fails for a reason of its own was given
nothing. -/
theorem PassesOn.not_given_of_fail (passesOn : running.PassesOn dispatcher) {cause : String}
    {store : Store} (reaches : running.Reaches dispatcher (.fail cause) store) (fault : Fault) :
    ¬ running.Given dispatcher fault := by
  rintro ⟨request, next, moment, asks, isGiven⟩
  have noneAfterFail : ∀ point, ¬ Next dispatcher running (.fail cause, store) point := nofun
  have noneAfterRaise : ∀ last point, ¬ Next dispatcher running (.raise fault, last) point := nofun
  -- one of the two points comes before the other, and nothing comes after an end
  rcases ReflTransGen.total_of_right_unique next_rightUnique reaches.chain asks.chain with
    later | earlier
  · cases (Relation.reflTransGen_iff_eq noneAfterFail).mp later
  · rcases earlier.cases_head with same | ⟨_, ⟨run⟩, rest⟩
    · cases same
    · rw [attempt_of_fault isGiven] at run
      cases run
      rw [passesOn request next moment fault asks isGiven] at rest
      cases (Relation.reflTransGen_iff_eq (noneAfterRaise _)).mp rest

/-! ## From where a fault is raised outwards -/

/-- An activation that raises a fault and passes on ends with it, on the store where it was
raised. -/
theorem Raises.effect_eq {fault : Fault} {store : Store}
    (raises : running.Raises dispatcher fault store) (passesOn : running.PassesOn dispatcher) :
    (running.effect dispatcher).result = refuse fault ∧
      (running.effect dispatcher).store = store := by
  cases raises with
  | refused reaches isRefused =>
      have ends := passesOn.effect_eq reaches (congrArg Effect.result isRefused)
      rw [isRefused] at ends
      exact ends
  | own reaches _ => exact reaches.effect_of_raise
  | fails reaches => exact reaches.effect_of_fail

section Runs
variable (flat : dispatcher.hierarchy.Flat decls)
include flat

/-- A fault of an activation is one of whoever started it and passes on, on the same store. -/
theorem crosses_starts (passesOn : running.PassesOn dispatcher)
    (starts : running.Starts dispatcher called) {fault : Fault}
    (ends : (called.effect dispatcher).result = refuse fault) :
    (running.effect dispatcher).result = refuse fault ∧
      (running.effect dispatcher).store = (called.effect dispatcher).store := by
  obtain ⟨request, next, reaches, runs⟩ := starts.runs flat
  rw [← runs.store]
  exact passesOn.effect_eq reaches ((runs.failure _).mpr ends)

/-- So it is one of all activations around, however deep they are nested. -/
theorem crosses_reached {outer inner : Activation}
    (reached : ReflTransGen (Starts dispatcher) outer inner)
    (passOn : ∀ running, ReflTransGen (Starts dispatcher) outer running →
      running.PassesOn dispatcher) {fault : Fault}
    (ends : (inner.effect dispatcher).result = refuse fault) :
    (outer.effect dispatcher).result = refuse fault ∧
      (outer.effect dispatcher).store = (inner.effect dispatcher).store := by
  induction reached using ReflTransGen.head_induction_on with
  | refl => exact ⟨ends, rfl⟩
  | @head outer middle starts _ ih =>
      obtain ⟨middleEnds, same⟩ := ih fun running below => passOn running (.head starts below)
      obtain ⟨outerEnds, sameHere⟩ := crosses_starts flat (passOn outer .refl) starts middleEnds
      exact ⟨outerEnds, sameHere.trans same⟩

omit flat in
theorem Occurs.trans {outer inner : Activation} {reference : Reference} {signature : Signature}
    {args : List Value} {store : Store}
    (occurs : outer.Occurs dispatcher reference signature args store)
    (reached : ReflTransGen (Starts dispatcher) outer inner) :
    inner.Occurs dispatcher reference signature args store := by
  obtain ⟨first, begins, before⟩ := occurs
  exact ⟨first, begins, before.trans reached⟩

/-- So it is that of a call of the host, if all activations pass on. -/
theorem Occurs.crosses {reference : Reference} {signature : Signature} {args : List Value}
    {store : Store} (occurs : running.Occurs dispatcher reference signature args store)
    (passOn : ∀ running : Activation, running.Occurs dispatcher reference signature args store →
      running.PassesOn dispatcher) {fault : Fault}
    (ends : (running.effect dispatcher).result = refuse fault) :
    let run := dispatcher.invoke reference signature args store
    run.result = refuse fault ∧ run.store = (running.effect dispatcher).store := by
  obtain ⟨first, begins, reached⟩ := occurs
  obtain ⟨firstEnds, same⟩ := crosses_reached flat reached
    (fun running below => passOn running ⟨first, begins, below⟩) ends
  have runs := begins.runs flat
  exact ⟨(runs.failure _).mpr firstEnds, runs.store.trans same⟩

/-! ## From the end back to where a fault is raised -/

/-- Why a request is refused that starts no method. -/
theorem refuses_of_refused (stands : running.Stands dispatcher) {request : Request}
    {next : Except Fault request.Reply → Program Value} {fault : Fault} {store : Store}
    (reaches : running.Reaches dispatcher (.ask request next) store)
    (isRefused : (running.frame dispatcher).answer request store = ⟨refuse fault, store, []⟩) :
    dispatcher.Refuses store (.fault fault) := by
  obtain silent | ⟨called, _, _, runs⟩ := silent_or_starts flat stands reaches
  · exact (silent.refused _ (congrArg Effect.result isRefused)).2
  · have dispatches := runs.dispatches
    rw [isRefused] at dispatches
    cases dispatches

/-- Only a body of the host raises a fault that names one: it is named itself, or makes the
fault up. -/
theorem Raises.of_native (stands : running.Stands dispatcher) {cls cause : String}
    {named : Signature} {store : Store}
    (raises : running.Raises dispatcher (.native cls named cause) store) :
    running.method.body.isExpr = false ∧
      ((running.owner.name = cls ∧ running.method.signature = named ∧
          running.Reaches dispatcher (.fail cause) store) ∨
        running.Reaches dispatcher (.raise (.native cls named cause)) store ∧
          ¬ running.Given dispatcher (.native cls named cause)) := by
  cases raises with
  | refused reaches isRefused =>
      have refuses := refuses_of_refused flat stands reaches isRefused
      exact absurd refuses (dispatcher.not_refuses_native _ _ _ _)
  | own reaches notGiven =>
      refine ⟨?_, .inr ⟨reaches, notGiven⟩⟩
      rw [Bool.eq_false_iff]
      intro isExpr
      cases ending_of_expr isExpr reaches notGiven
  | fails reaches => exact ⟨isNative_of_fail reaches, .inl ⟨rfl, rfl, reaches⟩⟩

/-- A fault with which an activation ends was raised by it or by one that was started from
there on, whatever bodies do. -/
theorem exists_raiser (stands : running.Stands dispatcher) {fault : Fault}
    (ends : (running.effect dispatcher).result = refuse fault) :
    ∃ raiser store, ReflTransGen (Starts dispatcher) running raiser ∧
      raiser.Raises dispatcher fault store := by
  -- the levels of nesting that are left decrease from an activation to those that it starts
  induction left : dispatcher.options.maxCallDepth - running.depth
    generalizing running with
  | zero => exact absurd stands.entered.within (by omega)
  | succ remaining ih =>
      rw [effect, Frame.runBody_eq_perform] at ends
      obtain ⟨last, reaches⟩ | ⟨cause, last, reaches, rfl⟩ :=
        Reaches.exists_last _ (.start : running.Reaches dispatcher _ _) ends
      · by_cases isGiven : running.Given dispatcher fault
        · obtain ⟨request, next, store, asks, answered⟩ := isGiven
          obtain silent | ⟨called, starts, _, runs⟩ := silent_or_starts flat stands asks
          · exact ⟨running, store, .refl, .refused asks (silent.refused _ answered).1⟩
          · have deeper := starts.deeper
            obtain ⟨raiser, moment, reached, raises⟩ :=
              ih (stands_of_starts flat stands starts).1 ((runs.failure _).mp answered) (by omega)
            exact ⟨raiser, moment, .head starts reached, raises⟩
        · exact ⟨running, last, .refl, .own reaches isGiven⟩
      · exact ⟨running, last, .refl, .fails reaches⟩

/-! ## Instances are there to the end -/

/-- From every point of an activation to its end stores only grow. -/
theorem Reaches.lasts_end {program : Program Value} {store : Store}
    (reaches : running.Reaches dispatcher program store) :
    store.Lasts (running.effect dispatcher).store := by
  rw [reaches.effect_eq.2]
  exact (Store.steady_lasts _).of_course ((through_frame flat running).2 _ program store)

/-- So do they from the end of an activation to the end of the one that started it. -/
theorem Starts.lasts_end (starts : running.Starts dispatcher called) :
    (called.effect dispatcher).store.Lasts (running.effect dispatcher).store := by
  obtain ⟨request, next, reaches, runs⟩ := starts.runs flat
  rw [← runs.store, ← (attempt_does _ _).2]
  rcases run : Action.attempt ((running.frame dispatcher).answer request) called.start with
    ⟨failure | reply, reached, events⟩
  · have stops : (running.frame dispatcher).perform running.owner.name (.ask request next)
        called.start = _ := Action.run_bind_of_error run _
    rw [reaches.effect_eq.2, stops]
    exact reached.lasts_refl
  · exact (reaches.reply run).lasts_end flat

theorem lasts_of_reached {outer inner : Activation}
    (reached : ReflTransGen (Starts dispatcher) outer inner) :
    inner.start.Lasts (outer.effect dispatcher).store := by
  induction reached using ReflTransGen.head_induction_on with
  | refl => exact Reaches.start.lasts_end flat
  | head starts _ ih => exact ih.trans (starts.lasts_end flat)

variable {reference : Reference} {signature : Signature} {args : List Value} {store : Store}

theorem Occurs.lasts (occurs : running.Occurs dispatcher reference signature args store) :
    running.start.Lasts (dispatcher.invoke reference signature args store).store := by
  obtain ⟨first, begins, reached⟩ := occurs
  rw [(begins.runs flat).store]
  exact lasts_of_reached flat reached

/-- The receiver of a method that ran in a call is there at the end of the call. -/
theorem Occurs.live (occurs : running.Occurs dispatcher reference signature args store) :
    ∃ inst, (dispatcher.invoke reference signature args store).store.find? running.receiver =
      some inst := by
  obtain ⟨inst, live, _⟩ := (occurs.stands flat).entered.live flat
  obtain ⟨now, isLive, _⟩ := (occurs.lasts flat).kept running.receiver inst live not_false
  exact ⟨now, isLive⟩

/-- A call of the host that ends with a fault was refused before a method was started, or the
fault was raised in a method that ran. -/
theorem refused_or_raised {fault : Fault}
    (ends : (dispatcher.invoke reference signature args store).result = refuse fault) :
    dispatcher.invoke reference signature args store = ⟨refuse fault, store, []⟩ ∧
        dispatcher.Refuses store (.fault fault) ∨
      ∃ (raiser : Activation) (moment : Store),
        raiser.Occurs dispatcher reference signature args store ∧
          raiser.Raises dispatcher fault moment := by
  obtain silent | ⟨first, begins, runs⟩ := silent_or_begins flat reference signature args store
  · exact .inl (silent.refused _ ends)
  · obtain ⟨raiser, moment, reached, raises⟩ :=
      exists_raiser flat (stands_of_begins flat begins) ((runs.failure _).mp ends)
    exact .inr ⟨raiser, moment, ⟨first, begins, reached⟩, raises⟩

end Runs

end Activation

/-- If all bodies of the host that run within a call end with what they are given as it is,
then a fault that is raised in any method that runs, however deep and by whatever step, is the
one with which all methods around it and the call itself end, and the store is as it was where
the fault was raised.  A body that fails for a reason of its own shows in the fault with the
class that declares it, its signature and the reason, and it was given no fault before, so no
fault is put into another one.  Conversely the call ends only with a fault that it was refused
with at once or that was raised in this way, and only a body of the host raises a fault that
names one. -/
theorem Dispatcher.faults_cross_frames {hierarchy : Hierarchy} (isSealed : hierarchy.Sealed)
    (options : Options) (reference : Reference) (signature : Signature) (args : List Value)
    (store : Store)
    (passOn : ∀ running : Activation,
      running.Occurs ⟨hierarchy, options⟩ reference signature args store →
        running.method.body.isExpr = false → running.PassesOn ⟨hierarchy, options⟩) :
    let dispatcher : Dispatcher := ⟨hierarchy, options⟩
    let Occurs := Activation.Occurs dispatcher reference signature args store
    let run := dispatcher.invoke reference signature args store
    (∀ running request next moment fault, Occurs running →
      running.Reaches dispatcher (.ask request next) moment →
        let answered := (running.frame dispatcher).answer request moment
        answered.result = refuse fault → run.result = refuse fault ∧ run.store = answered.store) ∧
    (∀ raiser fault moment, Occurs raiser → raiser.Raises dispatcher fault moment →
      run.result = refuse fault ∧ run.store = moment ∧
      ∀ outer, Occurs outer → ReflTransGen (Activation.Starts dispatcher) outer raiser →
        (outer.effect dispatcher).result = refuse fault ∧
          (outer.effect dispatcher).store = moment) ∧
    (∀ running cause moment, Occurs running → running.Reaches dispatcher (.fail cause) moment →
      run.result = refuse (.native running.owner.name running.method.signature cause) ∧
      run.store = moment ∧
      running.method.body.isExpr = false ∧
      hierarchy.classes.find? running.method.owner = some running.owner ∧
      running.method ∈ running.owner.methods ∧
      ∀ fault, ¬ running.Given dispatcher fault) ∧
    (∀ fault, run.result = refuse fault →
      run = ⟨refuse fault, store, []⟩ ∨
        ∃ raiser, Occurs raiser ∧ raiser.Raises dispatcher fault run.store) ∧
    (∀ cls named cause, run.result = refuse (.native cls named cause) →
      ∃ raiser, Occurs raiser ∧ raiser.method.body.isExpr = false ∧
        ((raiser.owner.name = cls ∧ raiser.method.signature = named ∧
            raiser.Reaches dispatcher (.fail cause) run.store) ∨
          raiser.Reaches dispatcher (.raise (.native cls named cause)) run.store ∧
            ¬ raiser.Given dispatcher (.native cls named cause))) := by
  intro dispatcher Occurs run
  obtain ⟨decls, flat⟩ := isSealed.exists_flat
  have passesOn : ∀ running, Occurs running → running.PassesOn dispatcher := by
    intro running occurs
    cases isExpr : running.method.body.isExpr with
    | true => exact Activation.passesOn_of_expr isExpr
    | false => exact passOn running occurs isExpr
  have raised : ∀ raiser fault moment, Occurs raiser →
      raiser.Raises dispatcher fault moment → run.result = refuse fault ∧ run.store = moment := by
    intro raiser fault moment occurs raises
    obtain ⟨ends, rfl⟩ := raises.effect_eq (passesOn raiser occurs)
    exact occurs.crosses flat passesOn ends
  refine ⟨?_, ?_, ?_, ?_, ?_⟩
  · intro running request next moment fault occurs reaches answered isRefused
    obtain ⟨ends, same⟩ := (passesOn running occurs).effect_eq reaches isRefused
    obtain ⟨result, isStore⟩ := occurs.crosses flat passesOn ends
    exact ⟨result, isStore.trans same⟩
  · intro raiser fault moment occurs raises
    obtain ⟨result, isMoment⟩ := raised raiser fault moment occurs raises
    refine ⟨result, isMoment, ?_⟩
    intro outer outerOccurs reached
    obtain ⟨ends, rfl⟩ := raises.effect_eq (passesOn raiser occurs)
    exact Activation.crosses_reached flat reached
      (fun running below => passesOn running (outerOccurs.trans below)) ends
  · intro running cause moment occurs reaches
    obtain ⟨result, isMoment⟩ := raised running _ moment occurs (.fails reaches)
    have stands := occurs.stands flat
    exact ⟨result, isMoment, Activation.isNative_of_fail reaches, stands.entered.ownerFound,
      stands.declared, (passesOn running occurs).not_given_of_fail reaches⟩
  · intro fault ends
    obtain ⟨refused, _⟩ | ⟨raiser, moment, occurs, raises⟩ :=
      Activation.refused_or_raised flat ends
    · exact .inl refused
    · obtain ⟨_, rfl⟩ := raised raiser fault moment occurs raises
      exact .inr ⟨raiser, occurs, raises⟩
  · intro cls named cause ends
    obtain ⟨_, refuses⟩ | ⟨raiser, moment, occurs, raises⟩ :=
      Activation.refused_or_raised flat ends
    · exact absurd refuses (not_refuses_native _ _ _ _ _)
    · obtain ⟨_, rfl⟩ := raised raiser _ moment occurs raises
      exact ⟨raiser, occurs, raises.of_native flat (occurs.stands flat)⟩

/-! ## A press that jams -/

/-- Counts the sheet and fails. -/
def jam : Native := fun view _ =>
  (Program.request (.write view.receiver "count" (.int 1))).bind fun _ => .fail "paper jam"

def launch : Native := fun view _ => Program.request (.invoke view.receiver "print" [])

/-- A press that prints badly, and a rotary one that prints as its parent does. -/
def pressDecl : ClassDecl :=
  { name := "Press"
    fields := [⟨"count", .int 0⟩]
    methods := [⟨"print", 0, .native jam⟩] }

def rotaryDecl : ClassDecl :=
  { name := "Rotary"
    parent := some "Press"
    methods := [⟨"print", 0, .expr (.super "print" [])⟩, ⟨"start", 0, .native launch⟩] }

def press : Class := .ofDecl ⟨1, 0⟩ none pressDecl

def rotary : Class := .ofDecl ⟨1, 1⟩ (some press) rotaryDecl

def pressHierarchy : Hierarchy :=
  match Hierarchy.build 1 [pressDecl, rotaryDecl] with
  | .ok hierarchy => hierarchy
  | .error _ => ⟨.empty 1, #[]⟩

theorem pressHierarchy_sealed : pressHierarchy.Sealed := ⟨1, [pressDecl, rotaryDecl], rfl⟩

theorem pressHierarchy_relays : pressHierarchy.Relays := by
  have listed : pressHierarchy.classes.classes.toList = [press, rotary] := rfl
  intro cls isListed method declared native isBody view args
  rw [listed] at isListed
  rcases List.mem_pair.mp isListed with rfl | rfl
  · cases List.mem_singleton.mp declared
    cases isBody
    exact relays_request _ fun _ => nofun
  · rcases List.mem_pair.mp declared with rfl | rfl
    · cases isBody
    · cases isBody
      exact ⟨fun _ => rfl, fun _ => nofun⟩

/-- The host's code calls the rotary press, which goes to its parent, whose print method jams
after it has counted: the fault names the parent and its print method, and the count stays. -/
theorem jam_crosses :
    let dispatcher : Dispatcher := ⟨pressHierarchy, {}⟩
    let store : Store := ⟨#[some ⟨⟨1, 1⟩, .managed, [.int 0]⟩]⟩
    let counted : Store := ⟨#[some ⟨⟨1, 1⟩, .managed, [.int 1]⟩]⟩
    let Occurs := Activation.Occurs dispatcher ⟨1, ⟨1, 1⟩⟩ ⟨"start", 0⟩ [] store
    let start := dispatcher.invoke ⟨1, ⟨1, 1⟩⟩ ⟨"start", 0⟩ [] store
    let jammed : Fault := .native "Press" ⟨"print", 0⟩ "paper jam"
    pressHierarchy.Sealed ∧
    (∀ running, Occurs running → running.method.body.isExpr = false →
      running.PassesOn dispatcher) ∧
    ∃ outer inner : Activation, Occurs outer ∧ Occurs inner ∧ outer.owner = rotary ∧
      inner.exact = rotary ∧ inner.owner = press ∧ inner.depth = 2 ∧
      inner.Reaches dispatcher (.fail "paper jam") counted ∧
      (∀ fault, ¬ inner.Given dispatcher fault) ∧
      (outer.effect dispatcher).result = refuse jammed ∧
      start.result = refuse jammed ∧ start.store = counted := by
  intro dispatcher store counted Occurs start jammed
  obtain ⟨decls, flat⟩ := pressHierarchy_sealed.exists_flat
  have passOn : ∀ running, Occurs running → running.method.body.isExpr = false →
      running.PassesOn dispatcher := by
    intro running occurs isNative
    exact Activation.passesOn_of_relays
      (Activation.relays_of_native pressHierarchy_relays (occurs.stands flat) isNative)
  let outer : Activation :=
    ⟨1, rotary, rotary, ⟨⟨1, 1⟩, ⟨"start", 0⟩, .native launch⟩, [], 0, store⟩
  let middle : Activation :=
    ⟨1, rotary, rotary, ⟨⟨1, 1⟩, ⟨"print", 0⟩, .expr (.super "print" [])⟩, [], 1, store⟩
  let inner : Activation := ⟨1, rotary, press, ⟨⟨1, 0⟩, ⟨"print", 0⟩, .native jam⟩, [], 2, store⟩
  have begins : outer.Begins dispatcher ⟨1, ⟨1, 1⟩⟩ ⟨"start", 0⟩ [] store :=
    { entered := ⟨rfl, rfl, rfl, by decide⟩
      outermost := rfl
      permitted := rfl
      receiver := rfl
      resolved := rfl
      args := rfl
      start := rfl }
  have calls : outer.Starts dispatcher middle :=
    { entered := ⟨rfl, rfl, rfl, by decide⟩
      deeper := rfl
      asked := ⟨_, _, .start, .invoke rfl⟩ }
  have ascends : middle.Starts dispatcher inner :=
    { entered := ⟨rfl, rfl, rfl, by decide⟩
      deeper := rfl
      asked := ⟨_, _, .start, .super rfl rfl⟩ }
  have reached : ReflTransGen (Activation.Starts dispatcher) outer inner :=
    .head calls (.single ascends)
  have outerOccurs : Occurs outer := ⟨outer, begins, .refl⟩
  have innerOccurs : Occurs inner := ⟨outer, begins, reached⟩
  have asks : inner.Reaches dispatcher (.ask (.write 1 "count" (.int 1)) _) store := .start
  have counts : Action.attempt ((inner.frame dispatcher).answer (.write 1 "count" (.int 1))) store =
      ⟨.ok (.ok ()), counted, []⟩ := rfl
  have fails : inner.Reaches dispatcher (.fail "paper jam") counted := asks.reply counts
  obtain ⟨_, crosses, named, _, _⟩ := Dispatcher.faults_cross_frames pressHierarchy_sealed {}
    ⟨1, ⟨1, 1⟩⟩ ⟨"start", 0⟩ [] store passOn
  obtain ⟨result, isCounted, _, _, _, notGiven⟩ := named inner "paper jam" counted innerOccurs fails
  obtain ⟨_, _, around⟩ := crosses inner jammed counted innerOccurs (.fails fails)
  exact ⟨pressHierarchy_sealed, passOn, outer, inner, outerOccurs, innerOccurs, rfl, rfl, rfl, rfl,
    fails, notGiven, (around outer outerOccurs reached).1, result, isCounted⟩

end Lineage
