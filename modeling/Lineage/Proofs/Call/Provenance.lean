import Lineage.Proofs.Call.Adequacy
import Lineage.Proofs.Call.Discipline
import Lineage.Proofs.Store.Ledger

/-!
# Where instances come from

The states that the machine comes to in a call are sound: the objects in flight are held
under a discipline, the nodes that are still ahead occur in the hierarchy, what was done so
far is a course of writes, allocations and reports, and of every allocation that was
reported something is known (`Sound`).  Only a `new` node allocates, so this is all that has
to be shown where such a node is evaluated: `sound_step` is the step, `sound_reached` the
run.
-/

set_option autoImplicit false

namespace Lineage

/-- The objects among the values are held. -/
def Discipline.Holds (discipline : Discipline) (store : Store) (values : List Value) : Prop :=
  ∀ id, .object id ∈ values → discipline.Held store id

section Holds
variable {discipline : Discipline} {store : Store} {first second : List Value} {value : Value}

theorem Discipline.holds_nil : discipline.Holds store [] := nofun

theorem Discipline.holds_append :
    discipline.Holds store (first ++ second) ↔
      discipline.Holds store first ∧ discipline.Holds store second := by
  simp only [Holds, List.mem_append, or_imp, forall_and]

theorem Discipline.holds_cons :
    discipline.Holds store (value :: first) ↔
      discipline.Holds store [value] ∧ discipline.Holds store first := by
  rw [← holds_append, List.singleton_append]

theorem Discipline.Holds.mono {reached : Store} (held : discipline.Holds store first)
    (grows : ∀ id, discipline.Held store id → discipline.Held reached id) :
    discipline.Holds reached first :=
  fun id isObject => grows id (held id isObject)

theorem Discipline.holds_literal (literal : Literal) : discipline.Holds store [literal.value] := by
  intro id isObject
  have impossible := congrArg Value.object? (List.mem_singleton.mp isObject)
  rw [Literal.object?_value] at impossible
  cases impossible

end Holds

/-! ## Steps that allocate nothing -/

/-- Started with the objects among the given values held, the action keeps the discipline;
what it does is a course, and it reports no allocation. -/
structure Action.Tame (discipline : Discipline) (classes : ClassTable) {α : Type}
    (given : List Value) (gives : α → List Value) (action : Action α) : Prop where
  keeps : discipline.Keeps given gives action
  through : action.Through classes
  silent : ∀ store, ∀ event ∈ (action store).events, event.allocated? = none

namespace Action

variable {discipline : Discipline} {classes : ClassTable} {α β : Type} {given : List Value}
  {gives : α → List Value}

theorem tame_lift {outcome : Outcome α} (unnumbered : Unnumbered outcome)
    (known : ∀ value, outcome = .ok value → gives value ⊆ given) :
    (lift outcome).Tame discipline classes given gives where
  keeps := Discipline.keeps_lift unnumbered known
  through := through_lift outcome
  silent _ := List.forall_mem_nil _

theorem tame_pure (value : α) (known : gives value ⊆ given) :
    (pure value : Action α).Tame discipline classes given gives := by
  refine tame_lift (unnumbered_ok value) ?_
  rintro _ ⟨⟩
  exact known

theorem tame_raise {cause : Fault} (plain : ∀ id, cause ≠ .unknownInstance id) :
    (raise cause : Action α).Tame discipline classes given gives :=
  tame_lift (ordinary_refuse plain).unnumbered nofun

theorem Tame.bind {action : Action α} {next : α → Action β} {last : β → List Value}
    (first : action.Tame discipline classes given gives)
    (rest : ∀ value, (next value).Tame discipline classes (gives value ++ given) last) :
    (action >>= next).Tame discipline classes given last where
  keeps := first.keeps.bind fun value => (rest value).keeps
  through := first.through.bind fun value => (rest value).through
  silent store := by
    have early := first.silent store
    rcases run : action store with ⟨failure | value, reached, events⟩
    · rw [run] at early
      rw [run_bind_of_error run]
      exact early
    · rw [run] at early
      rw [run_bind_of_ok run]
      exact List.forall_mem_append.mpr ⟨early, (rest value).silent reached⟩

theorem Tame.weaken {action : Action α} {more : List Value}
    (tame : action.Tame discipline classes given gives) (included : given ⊆ more) :
    action.Tame discipline classes more gives :=
  ⟨tame.keeps.weaken included, tame.through, tame.silent⟩

theorem tame_objectOf (value : Value) :
    (Frame.objectOf value).Tame discipline classes [value] fun id => [.object id] := by
  unfold Frame.objectOf
  cases isObject : value.object? with
  | some id =>
      rw [Value.object?_eq_some_iff] at isObject
      subst isObject
      exact tame_pure id (List.Subset.refl _)
  | none => exact tame_raise nofun

theorem tame_query {ask : Store → Outcome α} (keeps : discipline.Keeps given gives (query ask)) :
    (query ask).Tame discipline classes given gives :=
  ⟨keeps, through_query ask, fun _ => List.forall_mem_nil _⟩

section Stores
variable {hierarchy : Hierarchy} (respected : discipline.Respected hierarchy.classes)
  (options : Options)
include respected

theorem tame_classOf (target : InstanceNo) :
    (Dispatcher.classOf ⟨hierarchy, options⟩ target).Tame discipline hierarchy.classes
      [.object target] fun _ => [] := by
  have asks := (discipline.within options respected).exact target target
  refine (tame_query (@Discipline.keeps_of_agree discipline ClassId [.object target] _ _ asks)).bind
    fun id => ?_
  refine (tame_lift (unnumbered_get hierarchy.classes id) fun _ _ => List.nil_subset _).bind
    fun cls => ?_
  exact tame_pure cls.id (List.nil_subset _)

theorem tame_read (target : InstanceNo) (field : String) :
    (Dispatcher.read ⟨hierarchy, options⟩ target field).Tame discipline hierarchy.classes
      [.object target] fun value => [value] :=
  tame_query (@Discipline.keeps_of_agree discipline Value [.object target] _ _
    (Discipline.agree_read respected target target field))

theorem tame_write (target : InstanceNo) (field : String) (value : Value) :
    (Dispatcher.write ⟨hierarchy, options⟩ target field value).Tame discipline hierarchy.classes
      [.object target, value] fun _ => [] where
  keeps := Discipline.keeps_write respected target field value
  through := through_write target field value
  silent store := by
    unfold Dispatcher.write update
    split <;> exact List.forall_mem_nil _

omit respected in
theorem tame_announce (receiver : InstanceNo) (id : ClassId) (method : Method) (depth : Nat) :
    (Dispatcher.announce ⟨hierarchy, options⟩ receiver id method depth).Tame discipline
      hierarchy.classes given fun _ => [] := by
  have nothing {α : Type} {outcome : Outcome α} (unnumbered : Unnumbered outcome)
      (given : List Value) :
      (lift outcome).Tame discipline hierarchy.classes given fun _ => [] :=
    tame_lift unnumbered fun _ _ => List.nil_subset _
  refine (nothing (unnumbered_classAt hierarchy.classes id) given).bind fun cls => ?_
  refine (nothing (unnumbered_classAt hierarchy.classes method.owner) _).bind fun owner => ?_
  exact
    { keeps := fun store valid _ => ⟨valid, fun _ held => held, nofun, nofun⟩
      through := fun _ => .report .stay _ _ _ _ _ _
      silent := fun _ => List.forall_mem_singleton.mpr rfl }

end Stores

end Action

/-! ## The step that allocates -/

section Allocation
variable {discipline : Discipline} {hierarchy : Hierarchy}

theorem Dispatcher.keeps_allocateFor (respected : discipline.Respected hierarchy.classes)
    (options : Options) (receiver : InstanceNo) (cls : String) (mark : Option Domain) :
    discipline.Keeps [.object receiver] (fun id => [.object id])
      (Dispatcher.allocateFor ⟨hierarchy, options⟩ receiver cls mark) := by
  have allocates (domain : Domain) := Discipline.keeps_allocateNamed respected cls domain
  cases mark with
  | some domain => exact (allocates domain).weaken (List.nil_subset _)
  | none =>
      have asks := (discipline.within options respected).domain receiver receiver
      refine (@Discipline.keeps_of_agree discipline Domain [.object receiver] _ _ asks).bind
        fun domain => ?_
      exact (allocates domain).weaken (List.nil_subset _)

/-- What is allocated gets the next number and the given domain, or that of the receiver. -/
theorem Dispatcher.allocated_of_allocateFor {dispatcher : Dispatcher} {receiver : InstanceNo}
    {cls : String} {mark : Option Domain} {moment : Store} {id : InstanceNo} {name : String}
    {domain : Domain}
    (reported : .allocated id name domain ∈
      (dispatcher.allocateFor receiver cls mark moment).events) :
    id = moment.next ∧ (mark = some domain ∨ mark = none ∧
      ∃ inst, moment.find? receiver = some inst ∧ inst.domain = domain) := by
  have named {given : Domain} (isThere : .allocated id name domain ∈
      (dispatcher.allocate cls given moment).events) : id = moment.next ∧ given = domain := by
    obtain ⟨found, run⟩ | ⟨failure, run⟩ :=
      Action.allocateNamed_cases dispatcher.hierarchy.classes cls given moment
    · rw [Dispatcher.allocate, run, List.mem_singleton] at isThere
      cases isThere
      exact ⟨rfl, rfl⟩
    · rw [Dispatcher.allocate, run] at isThere
      cases isThere
  cases mark with
  | some given =>
      obtain ⟨isNext, rfl⟩ := named reported
      exact ⟨isNext, .inl rfl⟩
  | none =>
      cases live : moment.find? receiver with
      | none =>
          have missing : (Action.query fun store => store.domainOf receiver) moment =
              ⟨refuse (.unknownInstance receiver), moment, []⟩ := by
            simp only [Action.run_query, Store.domainOf, Store.get, live]
            rfl
          rw [allocateFor, Action.run_bind_of_error missing] at reported
          cases reported
      | some inst =>
          have known : (Action.query fun store => store.domainOf receiver) moment =
              ⟨.ok inst.domain, moment, []⟩ := by
            simp only [Action.run_query, Store.domainOf, Store.get, live]
            rfl
          rw [allocateFor, Action.run_bind_of_ok known] at reported
          obtain ⟨isNext, isDomain⟩ := named reported
          exact ⟨isNext, .inr ⟨rfl, inst, rfl, isDomain⟩⟩

end Allocation

/-! ## Sound states -/

namespace Machine

def Activity.values (running : Activity) : List Value := .object running.receiver :: running.args

def Callee.values : Callee → List Value
  | .virtual target => [.object target]
  | .parent => []

def Control.values : Control → List Value
  | .eval _ => []
  | .value content => [content]

/-- The nodes that are to be evaluated. -/
def Control.nodes : Control → List Expr.Node
  | .eval expr => expr.nodes
  | .value _ => []

def Task.values : Task → List Value
  | .store object _ => [.object object]
  | .operand callee _ values _ => callee.values ++ values
  | .leave caller => caller.values
  | _ => []

def Task.nodes : Task → List Expr.Node
  | .set _ value => value.nodes
  | .call _ operands => Expr.nodesAll operands
  | .operand _ _ _ operands => Expr.nodesAll operands
  | .steps rest => Expr.nodesAll rest
  | _ => []

section States
variable (discipline : Discipline) (hierarchy : Hierarchy) (origin : Store)
  (born : InstanceNo → Domain → Prop)

/-- What has been done so far kept the discipline and is a course from the first store on,
and every allocation that was reported is of the kind. -/
structure Traced (store : Store) (events : List Event) : Prop where
  valid : discipline.Valid store
  course : origin.Course hierarchy.classes events store
  born : ∀ id name domain, .allocated id name domain ∈ events → born id domain

/-- The objects are held and the nodes occur in the hierarchy. -/
structure Backed (store : Store) (values : List Value) (nodes : List Expr.Node) : Prop where
  held : discipline.Holds store values
  present : ∀ node ∈ nodes, hierarchy.Contains node

inductive Sound : State → Prop where
  | working {running : Activity} {control : Control} {tasks : List Task} {store : Store}
      {events : List Event} (traced : Traced discipline hierarchy origin born store events)
      (frame : discipline.Holds store running.values)
      (here : Backed discipline hierarchy store control.values control.nodes)
      (left : ∀ task ∈ tasks, Backed discipline hierarchy store task.values task.nodes) :
      Sound (.working running control tasks store events)
  | halted {effect : Effect Value}
      (traced : Traced discipline hierarchy origin born effect.store effect.events) :
      Sound (.halted effect)

end States

section Soundness
variable {discipline : Discipline} {hierarchy : Hierarchy} {origin : Store}
  {born : InstanceNo → Domain → Prop} {store reached : Store} {events : List Event}

theorem Backed.mono {values : List Value} {nodes : List Expr.Node}
    (backed : Backed discipline hierarchy store values nodes)
    (grows : ∀ id, discipline.Held store id → discipline.Held reached id) :
    Backed discipline hierarchy reached values nodes :=
  ⟨backed.held.mono grows, backed.present⟩

/-- What is done at once keeps a state sound if what comes next is sound, and what it
allocates is of the kind. -/
theorem sound_after {α : Type} {action : Action α} {given : List Value} {gives : α → List Value}
    {next : α → Store → List Event → State} (keeps : discipline.Keeps given gives action)
    (through : action.Through hierarchy.classes)
    (traced : Traced discipline hierarchy origin born store events)
    (held : discipline.Holds store given)
    (births : ∀ id name domain, .allocated id name domain ∈ (action store).events → born id domain)
    (goesOn : ∀ value reached more, (action store).result = .ok value →
      Traced discipline hierarchy origin born reached more →
      (∀ id, discipline.Held store id → discipline.Held reached id) →
      discipline.Holds reached (gives value) →
        Sound discipline hierarchy origin born (next value reached more)) :
    Sound discipline hierarchy origin born (after action next store events) := by
  have kept := keeps store traced.valid held
  have course := through store
  rcases run : action store with ⟨result, reached, more⟩
  rw [run] at kept course births goesOn
  have tracedOn : Traced discipline hierarchy origin born reached (events ++ more) :=
    { valid := kept.valid
      course := traced.course.trans course
      born := fun id name domain isThere =>
        (List.mem_append.mp isThere).elim (traced.born id name domain) (births id name domain) }
  cases result with
  | error failure =>
      rw [after_of_error run]
      exact .halted tracedOn
  | ok value =>
      rw [after_of_ok run]
      exact goesOn value reached _ rfl tracedOn kept.grows (kept.gives value rfl)

/-- The same where nothing is allocated. -/
theorem sound_tame {α : Type} {action : Action α} {given : List Value} {gives : α → List Value}
    {next : α → Store → List Event → State}
    (tame : action.Tame discipline hierarchy.classes given gives)
    (traced : Traced discipline hierarchy origin born store events)
    (held : discipline.Holds store given)
    (goesOn : ∀ value reached more, (action store).result = .ok value →
      Traced discipline hierarchy origin born reached more →
      (∀ id, discipline.Held store id → discipline.Held reached id) →
      discipline.Holds reached (gives value) →
        Sound discipline hierarchy origin born (next value reached more)) :
    Sound discipline hierarchy origin born (after action next store events) := by
  refine sound_after tame.keeps tame.through traced held ?_ goesOn
  intro id name domain isThere
  cases tame.silent store _ isThere

theorem tame_argument (running : Activity) (index : Nat) :
    (running.argument index).Tame discipline hierarchy.classes running.args
      fun value => [value] := by
  unfold Activity.argument
  cases given : running.args[index]? with
  | some value =>
      exact Action.tame_pure value
        (List.cons_subset.mpr ⟨List.mem_of_getElem? given, List.nil_subset _⟩)
  | none => exact Action.tame_raise nofun

section Points
variable {decls : List ClassDecl} (flat : hierarchy.Flat decls)
  (respected : discipline.Respected hierarchy.classes) (options : Options)
  (traced : Traced discipline hierarchy origin born store events) {tasks : List Task}
  (left : ∀ task ∈ tasks, Backed discipline hierarchy store task.values task.nodes)

section Calls
include flat respected traced left

omit respected in
theorem sound_enter {receiver : InstanceNo} {method : Method} {args : List Value}
    (has : hierarchy.Has method) (frame : discipline.Holds store (.object receiver :: args))
    (id : ClassId) (depth : Nat) :
    Sound discipline hierarchy origin born
      (enter ⟨hierarchy, options⟩ receiver id method args depth tasks store events) := by
  unfold enter
  split
  · refine sound_tame (Action.tame_announce options receiver id method depth) traced
      Discipline.holds_nil ?_
    intro _ reached more _ tracedOn grows _
    obtain ⟨_, owner, found, declared⟩ := flat.exists_declaring has
    cases isBody : method.body with
    | expr body =>
        have present : ∀ node ∈ body.nodes, hierarchy.Contains node := fun node occurs =>
          Hierarchy.contains_of_find? found declared (by rw [isBody]; exact occurs)
        exact .working tracedOn (frame.mono grows) ⟨Discipline.holds_nil, present⟩
          fun task isThere => (left task isThere).mono grows
    | native body => exact .halted tracedOn
  · exact .halted traced

theorem sound_dispatch {target : InstanceNo} {args : List Value}
    (frame : discipline.Holds store (.object target :: args)) (signature : Signature)
    (depth : Nat) :
    Sound discipline hierarchy origin born
      (dispatch ⟨hierarchy, options⟩ target signature args depth tasks store events) := by
  refine sound_tame (Action.tame_classOf respected options target) traced
    (Discipline.holds_cons.mp frame).1 ?_
  intro id reached more _ tracedOn grows _
  have resolves := @Action.tame_lift discipline hierarchy.classes Method [] (fun _ => []) _
    (unnumbered_resolve hierarchy id signature) fun _ _ => List.nil_subset _
  refine sound_tame resolves tracedOn Discipline.holds_nil ?_
  intro method last final resolved tracedLast growsLast _
  have growsOn := fun other isHeld => growsLast other (grows other isHeld)
  exact sound_enter flat options tracedLast
    (fun task isThere => (left task isThere).mono growsOn) (flat.has_of_resolve resolved)
    (frame.mono growsOn) id depth

variable {running : Activity} (frame : discipline.Holds store running.values)
include frame

theorem sound_call {callee : Callee} {values : List Value}
    (operands : discipline.Holds store (callee.values ++ values)) (name : String) :
    Sound discipline hierarchy origin born
      (call ⟨hierarchy, options⟩ running callee name values tasks store events) := by
  have waiting : ∀ task ∈ Task.leave running :: tasks,
      Backed discipline hierarchy store task.values task.nodes :=
    List.forall_mem_cons.mpr ⟨⟨frame, List.forall_mem_nil _⟩, left⟩
  cases callee with
  | virtual target => exact sound_dispatch flat respected options traced waiting operands _ _
  | parent =>
      have ascends := @Action.tame_lift discipline hierarchy.classes Method [] (fun _ => []) _
        (unnumbered_inheritedMethod hierarchy running.method.owner ⟨name, values.length⟩)
        fun _ _ => List.nil_subset _
      refine sound_tame ascends traced Discipline.holds_nil ?_
      intro method reached more inherited tracedOn grows _
      have receiverHeld := (Discipline.holds_cons.mp frame).1
      refine sound_tame (Action.tame_classOf respected options running.receiver) tracedOn
        (receiverHeld.mono grows) ?_
      intro id last final _ tracedLast growsLast _
      have growsOn := fun other isHeld => growsLast other (grows other isHeld)
      have called : discipline.Holds store (.object running.receiver :: values) :=
        Discipline.holds_cons.mpr ⟨receiverHeld, operands⟩
      exact sound_enter flat options tracedLast
        (fun task isThere => (waiting task isThere).mono growsOn)
        (flat.has_of_inheritedMethod inherited) (called.mono growsOn) id _

theorem sound_supply {callee : Callee} {values : List Value} {operands : List Expr}
    (held : discipline.Holds store (callee.values ++ values))
    (present : ∀ node ∈ Expr.nodesAll operands, hierarchy.Contains node) (name : String) :
    Sound discipline hierarchy origin born
      (supply ⟨hierarchy, options⟩ running callee name values tasks operands store events) := by
  cases operands with
  | nil => exact sound_call flat respected options traced left frame held name
  | cons expr rest =>
      rw [Expr.nodesAll, List.forall_mem_append] at present
      exact .working traced frame ⟨Discipline.holds_nil, present.1⟩
        (List.forall_mem_cons.mpr ⟨⟨held, present.2⟩, left⟩)

omit flat respected in
theorem sound_proceed {last : Value} {exprs : List Expr}
    (held : discipline.Holds store [last])
    (present : ∀ node ∈ Expr.nodesAll exprs, hierarchy.Contains node) :
    Sound discipline hierarchy origin born (proceed running last tasks exprs store events) := by
  cases exprs with
  | nil => exact .working traced frame ⟨held, List.forall_mem_nil _⟩ left
  | cons expr rest =>
      rw [Expr.nodesAll, List.forall_mem_append] at present
      exact .working traced frame ⟨Discipline.holds_nil, present.1⟩
        (List.forall_mem_cons.mpr ⟨⟨Discipline.holds_nil, present.2⟩, left⟩)

/-- The step at an expression; what a `new` node allocates has to be of the kind. -/
theorem sound_evaluate (expr : Expr) (present : ∀ node ∈ expr.nodes, hierarchy.Contains node)
    (births : ∀ cls mark, expr = .new cls mark → ∀ id name domain,
      .allocated id name domain ∈
        (Dispatcher.allocateFor ⟨hierarchy, options⟩ running.receiver cls mark store).events →
          born id domain) :
    Sound discipline hierarchy origin born
      (evaluate ⟨hierarchy, options⟩ running tasks expr store events) := by
  have nothing : discipline.Holds store [] := Discipline.holds_nil
  cases expr with
  | lit value =>
      exact .working traced frame ⟨Discipline.holds_literal value, List.forall_mem_nil _⟩ left
  | this =>
      exact .working traced frame
        ⟨(Discipline.holds_cons.mp frame).1, List.forall_mem_nil _⟩ left
  | arg index =>
      refine sound_tame (tame_argument running index) traced (Discipline.holds_cons.mp frame).2 ?_
      intro value reached more _ tracedOn grows held
      exact .working tracedOn (frame.mono grows) ⟨held, List.forall_mem_nil _⟩
        fun task isThere => (left task isThere).mono grows
  | new cls mark =>
      have parametric := Dispatcher.parametric_through ⟨hierarchy, options⟩
      refine sound_after (Dispatcher.keeps_allocateFor respected options running.receiver cls mark)
        (parametric.allocateFor running.receiver cls mark) traced
        (Discipline.holds_cons.mp frame).1 (births cls mark rfl) ?_
      intro id reached more _ tracedOn grows held
      exact .working tracedOn (frame.mono grows) ⟨held, List.forall_mem_nil _⟩
        fun task isThere => (left task isThere).mono grows
  | get target field =>
      rw [Expr.nodes, List.forall_mem_append] at present
      exact .working traced frame ⟨nothing, present.1⟩
        (List.forall_mem_cons.mpr ⟨⟨nothing, List.forall_mem_nil _⟩, left⟩)
  | set target field value =>
      rw [Expr.nodes, List.forall_mem_append, List.forall_mem_append] at present
      exact .working traced frame ⟨nothing, present.1.1⟩
        (List.forall_mem_cons.mpr ⟨⟨nothing, present.1.2⟩, left⟩)
  | invoke target method operands =>
      rw [Expr.nodes, List.forall_mem_append, List.forall_mem_append] at present
      exact .working traced frame ⟨nothing, present.1.1⟩
        (List.forall_mem_cons.mpr ⟨⟨nothing, present.1.2⟩, left⟩)
  | super method operands =>
      rw [Expr.nodes, List.forall_mem_append] at present
      exact sound_supply flat respected options traced left frame nothing present.1 method
  | seq steps =>
      rw [Expr.nodes] at present
      exact sound_proceed traced left frame (Discipline.holds_literal .nil) present

/-- The step at a value. -/
theorem sound_resume {value : Value} (held : discipline.Holds store [value]) (task : Task)
    (backed : Backed discipline hierarchy store task.values task.nodes) :
    Sound discipline hierarchy origin born
      (resume ⟨hierarchy, options⟩ running value tasks task store events) := by
  have nothing : discipline.Holds store [] := Discipline.holds_nil
  cases task with
  | get field =>
      have reads := (Action.tame_objectOf value).bind fun object =>
        (Action.tame_read respected options object field).weaken
          (List.cons_subset_cons _ (List.nil_subset [value]))
      refine sound_tame reads traced held ?_
      intro content reached more _ tracedOn grows contentHeld
      exact .working tracedOn (frame.mono grows) ⟨contentHeld, List.forall_mem_nil _⟩
        fun task isThere => (left task isThere).mono grows
  | set field expr =>
      refine sound_tame (Action.tame_objectOf value) traced held ?_
      intro object reached more _ tracedOn grows objectHeld
      refine .working tracedOn (frame.mono grows) ⟨nothing.mono grows, backed.present⟩
        (List.forall_mem_cons.mpr ⟨⟨objectHeld, List.forall_mem_nil _⟩, ?_⟩)
      exact fun task isThere => (left task isThere).mono grows
  | store object field =>
      have both : discipline.Holds store [.object object, value] :=
        Discipline.holds_cons.mpr ⟨backed.held, held⟩
      refine sound_tame (Action.tame_write respected options object field value) traced both ?_
      intro _ reached more _ tracedOn grows _
      exact .working tracedOn (frame.mono grows) ⟨held.mono grows, List.forall_mem_nil _⟩
        fun task isThere => (left task isThere).mono grows
  | call method operands =>
      refine sound_tame (Action.tame_objectOf value) traced held ?_
      intro object reached more _ tracedOn grows objectHeld
      exact sound_supply flat respected options tracedOn
        (fun task isThere => (left task isThere).mono grows) (frame.mono grows) objectHeld
        backed.present method
  | operand callee method values operands =>
      have all : discipline.Holds store (callee.values ++ (values ++ [value])) := by
        rw [← List.append_assoc]
        exact Discipline.holds_append.mpr ⟨backed.held, held⟩
      exact sound_supply flat respected options traced left frame all backed.present method
  | steps rest => exact sound_proceed traced left frame held backed.present
  | leave caller => exact .working traced backed.held ⟨held, List.forall_mem_nil _⟩ left

end Calls

omit traced in
include flat respected in
/-- A step keeps a state sound, if what is allocated where a `new` node is evaluated is of
the kind. -/
theorem sound_step {state : State} (sound : Sound discipline hierarchy origin born state)
    (births : ∀ running cls mark tasks moment events,
      state = .working running (.eval (.new cls mark)) tasks moment events → ∀ id name domain,
        .allocated id name domain ∈
          (Dispatcher.allocateFor ⟨hierarchy, options⟩ running.receiver cls mark moment).events →
            born id domain) :
    Sound discipline hierarchy origin born (step ⟨hierarchy, options⟩ state) := by
  cases sound with
  | @working running control tasks store events traced frame here left =>
      cases control with
      | eval expr =>
          refine sound_evaluate flat respected options traced left frame expr here.present ?_
          rintro cls mark rfl
          exact births running cls mark tasks store events rfl
      | value content =>
          cases tasks with
          | nil => exact .halted traced
          | cons task tasks =>
              obtain ⟨backed, later⟩ := List.forall_mem_cons.mp left
              exact sound_resume flat respected options traced later frame here.held task backed
  | halted traced => exact .halted traced

end Points

/-! ## Whole calls -/

/-- The machine comes to the state in a call of the host. -/
def Reaches (dispatcher : Dispatcher) (reference : Reference) (signature : Signature)
    (args : List Value) (store : Store) (state : State) : Prop :=
  ∃ steps, (step dispatcher)^[steps] (start dispatcher reference signature args store) = state

/-- Every state of a call is sound, if what is allocated where it evaluates a `new` node in a
sound state is of the kind. -/
theorem sound_reached {decls : List ClassDecl} (flat : hierarchy.Flat decls)
    (respected : discipline.Respected hierarchy.classes) (options : Options)
    {reference : Reference} {signature : Signature} {args : List Value}
    (valid : discipline.Valid origin)
    (roots : discipline.Holds origin (.object reference.target :: args))
    (births : ∀ running cls mark tasks moment events,
      Reaches ⟨hierarchy, options⟩ reference signature args origin
        (.working running (.eval (.new cls mark)) tasks moment events) →
      Sound discipline hierarchy origin born
        (.working running (.eval (.new cls mark)) tasks moment events) → ∀ id name domain,
        .allocated id name domain ∈
          (Dispatcher.allocateFor ⟨hierarchy, options⟩ running.receiver cls mark moment).events →
            born id domain)
    {state : State} (reaches : Reaches ⟨hierarchy, options⟩ reference signature args origin state) :
    Sound discipline hierarchy origin born state := by
  obtain ⟨steps, rfl⟩ := reaches
  -- the state before each step is itself one of the call, so `births` applies to it
  induction steps with
  | zero =>
      have traced : Traced discipline hierarchy origin born origin [] :=
        ⟨valid, .stay, nofun⟩
      have permits := @Action.tame_lift discipline hierarchy.classes Unit [] (fun _ => []) _
        (unnumbered_permits hierarchy reference.staticType signature) fun _ _ => List.nil_subset _
      refine sound_tame permits traced Discipline.holds_nil ?_
      intro _ reached more _ tracedOn grows _
      exact sound_dispatch flat respected options tracedOn (List.forall_mem_nil _)
        (roots.mono grows) signature 0
  | succ steps ih =>
      rw [Function.iterate_succ_apply']
      refine sound_step flat respected options ih ?_
      intro running cls mark tasks moment events isState
      rw [isState] at ih
      exact births running cls mark tasks moment events ⟨steps, isState⟩ ih

end Soundness

end Machine

end Lineage
