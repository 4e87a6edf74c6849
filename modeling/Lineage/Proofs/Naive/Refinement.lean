import Lineage.Proofs.Call.Steps
import Lineage.Proofs.Naive.Abstraction

/-!
# The engine refines the interpreter

`Refines` says of an action of the engine and a computation of the interpreter
that from any typed store and the heap that it stands for they end alike and
leave a store and the heap that it stands for.  It is closed under sequencing
(`Refines.bind`), so it is shown for the operations on single instances and then
follows the evaluation: `refines_eval` for expressions, `refines_run` for nested
calls.
-/

set_option autoImplicit false

namespace Lineage.Naive

namespace Run

variable {α β : Type} (heap : Heap)

theorem on_bind (run : Run α) (next : α → Run β) :
    on (run >>= next) heap =
      match on run heap with
      | (.ok value, after) => on (next value) after
      | (.error cause, after) => (.error cause, after) := by
  change StateT.run (ExceptT.run (run >>= next)) heap = _
  rw [ExceptT.run_bind, StateT.run_bind]
  unfold on
  rcases StateT.run (ExceptT.run run) heap with ⟨_ | value, after⟩
  · rfl
  · rfl

end Run

section Relation
variable {α β γ δ : Type}

inductive Ends (R : α → β → Prop) : Outcome α → Except Fault β → Prop where
  | ok {value : α} {other : β} (related : R value other) : Ends R (.ok value) (.ok other)
  | fault (cause : Fault) : Ends R (.error (.fault cause)) (.error cause)

/-- What the engine did and what the interpreter did. -/
structure Follows (table : ClassTable) (R : α → β → Prop) (effect : Effect α)
    (other : Except Fault β × Heap) : Prop where
  typed : Typed table effect.store
  heap : other.2 = Heap.ofStore table effect.store
  ends : Ends R effect.result other.1

def Refines (table : ClassTable) (R : α → β → Prop) (action : Action α) (run : Run β) : Prop :=
  ∀ store, Typed table store →
    Follows table R (action store) (Run.on run (Heap.ofStore table store))

variable {table : ClassTable} {R : α → β → Prop} {S : γ → δ → Prop}

theorem refines_pure {value : α} {other : β} (related : R value other) :
    Refines table R (pure value) (pure other) :=
  fun _ typed => ⟨typed, rfl, .ok related⟩

theorem refines_raise (cause : Fault) :
    Refines table R (Action.raise cause) (throw cause) :=
  fun _ typed => ⟨typed, rfl, .fault cause⟩

theorem Refines.bind {action : Action α} {run : Run β} {next : α → Action γ} {after : β → Run δ}
    (first : Refines table R action run)
    (rest : ∀ value other, R value other → Refines table S (next value) (after other)) :
    Refines table S (action >>= next) (run >>= after) := by
  intro store typed
  obtain ⟨typedAfter, heap, ends⟩ := first store typed
  rw [Run.on_bind]
  rcases engine : action store with ⟨result, reached, events⟩
  rcases naive : Run.on run (Heap.ofStore table store) with ⟨answer, left⟩
  rw [engine] at typedAfter heap ends
  rw [naive] at heap ends
  dsimp only at heap
  subst heap
  cases ends with
  | fault cause =>
      rw [Action.run_bind_of_error engine]
      exact ⟨typedAfter, rfl, .fault cause⟩
  | @ok value other related =>
      rw [Action.run_bind_of_ok engine]
      obtain ⟨typedLast, heapLast, endsLast⟩ := rest value other related reached typedAfter
      exact ⟨typedLast, heapLast, endsLast⟩

/-- The case of equal answers. -/
theorem Refines.bind_eq {action : Action α} {run : Run α} {next : α → Action γ}
    {after : α → Run δ} (first : Refines table Eq action run)
    (rest : ∀ value, Refines table S (next value) (after value)) :
    Refines table S (action >>= next) (run >>= after) := by
  refine first.bind ?_
  intro value other same
  subst same
  exact rest value

theorem Refines.map {action : Action α} {run : Run β} (first : Refines table R action run)
    {change : α → γ} {other : β → δ} (kept : ∀ value twin, R value twin →
      S (change value) (other twin)) : Refines table S (change <$> action) (other <$> run) := by
  rw [map_eq_pure_bind, map_eq_pure_bind]
  exact first.bind fun value twin related => refines_pure (kept value twin related)

/-- An action that begins with a look at an instance. -/
theorem refines_of_live {action : Action α} {next : Object → Run β} {id : InstanceNo}
    (dead : ∀ store, store.find? id = none →
      action store = ⟨refuse (.unknownInstance id), store, []⟩)
    (alive : ∀ store inst cls, Typed table store → store.find? id = some inst →
      Fits table inst cls → Follows table R (action store)
        (Run.on (next (Object.ofInstance table inst)) (Heap.ofStore table store))) :
    Refines table R action (objectAt id >>= next) := by
  intro store typed
  have looked : Run.on (objectAt id) (Heap.ofStore table store) =
      Run.on (demand ((store.find? id).map (Object.ofInstance table)) (.unknownInstance id))
        (Heap.ofStore table store) := rfl
  rw [Run.on_bind, looked]
  cases live : store.find? id with
  | none =>
      rw [dead store live]
      exact ⟨typed, rfl, .fault _⟩
  | some inst =>
      obtain ⟨cls, fits⟩ := typed id inst live
      exact alive store inst cls typed live fits

end Relation

/-! ## Operations on single instances -/

section Operations
variable {hierarchy : Hierarchy} {decls : List ClassDecl} (flat : hierarchy.Flat decls)
  (options : Options)

/-- The class that the engine knows by identity and the interpreter by an object. -/
def ClassOf (table : ClassTable) (id : ClassId) (object : Object) : Prop :=
  ∃ cls, table.find? cls.id = some cls ∧ id = cls.id ∧ object.cls = cls.name

include flat

theorem refines_idOf (name : String) :
    Refines hierarchy.classes (fun id decl => ∃ cls, id = cls.id ∧ Made hierarchy.classes cls decl)
      (Action.lift (hierarchy.classes.idOf name))
      (demand (define? decls name) (.unknownClass name)) := by
  have holds := flat.holds
  unfold ClassTable.idOf
  cases named : hierarchy.classes.names.find? name with
  | none =>
      rw [define?_eq_none holds named]
      exact refines_raise _
  | some id =>
      obtain ⟨cls, found, ownName⟩ := (holds.named name id).mp named
      have ownId := holds.id_of_find? found
      obtain ⟨decl, defined, made⟩ := exists_define? holds (ownId ▸ found)
      rw [← ownName, defined]
      exact refines_pure ⟨cls, ownId.symm, made⟩

theorem refines_lookup (name : String) :
    Refines hierarchy.classes (Made hierarchy.classes)
      (Action.lift (hierarchy.classes.lookup name))
      (demand (define? decls name) (.unknownClass name)) := by
  have parts : Action.lift (hierarchy.classes.lookup name) =
      (Action.lift (hierarchy.classes.idOf name) >>= fun id =>
        Action.lift (hierarchy.classes.classAt id)) := Action.lift_bind _ _
  rw [parts, ← bind_pure (demand (define? decls name) (.unknownClass name))]
  refine (refines_idOf flat name).bind ?_
  rintro _ decl ⟨cls, rfl, made⟩
  rw [ClassTable.classAt_of_find? made.found]
  exact refines_pure made

theorem refines_classOf (target : InstanceNo) :
    Refines hierarchy.classes (ClassOf hierarchy.classes)
      (Dispatcher.classOf ⟨hierarchy, options⟩ target) (objectAt target) := by
  rw [← bind_pure (objectAt target)]
  apply refines_of_live
  · intro store absent
    exact Dispatcher.classOf_of_dead absent
  · intro store inst cls typed live fits
    rw [Dispatcher.classOf_of_live live fits.found]
    exact ⟨typed, rfl, .ok ⟨cls, fits.own flat.holds, rfl, cls_of_fits fits⟩⟩

omit flat in
theorem refines_domainOf (target : InstanceNo) :
    Refines hierarchy.classes (fun domain object => object.domain = domain)
      (Action.query fun store => store.domainOf target) (objectAt target) := by
  rw [← bind_pure (objectAt target)]
  apply refines_of_live
  · intro store absent
    simp [Action.query, Store.domainOf, Store.get, absent, refuse, Except.map]
  · intro store inst cls typed live fits
    have run : Action.query (fun store => store.domainOf target) store =
        ⟨.ok inst.domain, store, []⟩ := by
      simp [Action.query, Store.domainOf, Store.get, live, Except.map]
    rw [run]
    exact ⟨typed, rfl, .ok rfl⟩

theorem refines_allocate (cls : String) (domain : Domain) :
    Refines hierarchy.classes Eq (Dispatcher.allocate ⟨hierarchy, options⟩ cls domain)
      (Machine.allocate ⟨decls, options.maxCallDepth⟩ cls domain) := by
  refine (refines_lookup flat cls).bind ?_
  intro found decl made store typed
  obtain ⟨chain, chained⟩ := flat.holds.exists_chain made.found
  refine ⟨typed_allocate typed made.found domain, ?_, .ok rfl⟩
  rw [Action.allocate, ofStore_allocate flat.holds chained made.found, made.name]
  rfl

/-- What a class sees in an instance of a descendant. -/
theorem follows_readAs {inst : Instance} {cls view : Class} {chain : List Class}
    (fits : Fits hierarchy.classes inst cls) (chained : hierarchy.classes.Chain cls chain)
    (inChain : view ∈ chain) (field : String) {store : Store}
    (typed : Typed hierarchy.classes store) :
    Follows hierarchy.classes Eq ⟨inst.read view field, store, []⟩
      (Run.on (Machine.readAs ⟨decls, options.maxCallDepth⟩
        (Object.ofInstance hierarchy.classes inst) view.name field)
        (Heap.ofStore hierarchy.classes store)) := by
  have holds := flat.holds
  have viewFound := chained.find?_of_mem holds (fits.own holds) inChain
  obtain ⟨viewChain, viewChained⟩ := holds.exists_chain viewFound
  rw [Machine.readAs, Machine.keyOf]
  rcases owner?_cases holds viewChained viewFound field with
    ⟨undeclared, unowned⟩ | ⟨owner, declared, owned⟩
  · rw [unowned, Instance.read, fits.position_of_undeclared holds viewFound viewChained undeclared]
    exact ⟨typed, rfl, .fault _⟩
  · obtain ⟨slot, placed, inside, isKey⟩ :=
      position_of_owner holds chained fits inChain viewChained declared
    have content := List.getElem?_eq_getElem inside
    have read : inst.read view field = .ok inst.slots[slot] := by
      simp [Instance.read, placed, content, bind, Except.bind, pure, Except.pure]
    have kept := find?_fields holds chained fits isKey
    rw [content] at kept
    rw [owned, read]
    refine ⟨typed, rfl, .ok ?_⟩
    rw [kept]
    rfl

theorem refines_read (target : InstanceNo) (field : String) :
    Refines hierarchy.classes Eq (Dispatcher.read ⟨hierarchy, options⟩ target field)
      (Machine.read ⟨decls, options.maxCallDepth⟩ target field) := by
  apply refines_of_live
  · intro store absent
    simp [Dispatcher.read, Action.query, Store.read, Store.get, absent, refuse, bind, Except.bind]
  · intro store inst cls typed live fits
    obtain ⟨chain, chained⟩ := flat.holds.exists_chain fits.found
    have run : Dispatcher.read ⟨hierarchy, options⟩ target field store =
        ⟨inst.read cls field, store, []⟩ := by
      simp [Dispatcher.read, Action.query, Store.read, Store.get, live,
        ClassTable.get_of_find? fits.found, bind, Except.bind]
    rw [run, cls_of_fits fits]
    exact follows_readAs flat options fits chained chained.head_mem field typed

theorem refines_write (target : InstanceNo) (field : String) (value : Value) :
    Refines hierarchy.classes Eq (Dispatcher.write ⟨hierarchy, options⟩ target field value)
      (Machine.write ⟨decls, options.maxCallDepth⟩ target field value) := by
  have holds := flat.holds
  apply refines_of_live
  · intro store absent
    simp [Dispatcher.write, Action.update, Store.write, Store.get, absent, refuse, bind,
      Except.bind]
  · intro store inst cls typed live fits
    obtain ⟨chain, chained⟩ := holds.exists_chain fits.found
    have own := fits.own holds
    rw [cls_of_fits fits, Machine.keyOf]
    rcases owner?_cases holds chained own field with
      ⟨undeclared, unowned⟩ | ⟨owner, declared, owned⟩
    · have unplaced := fits.position_of_undeclared holds own chained undeclared
      have failed : Dispatcher.write ⟨hierarchy, options⟩ target field value store =
          ⟨refuse (.unknownField cls.name field), store, []⟩ := by
        simp [Dispatcher.write, Action.update, Store.write, Store.get, live,
          ClassTable.get_of_find? fits.found, Instance.write, unplaced, refuse, bind, Except.bind]
      rw [failed, unowned]
      exact ⟨typed, rfl, .fault _⟩
    · obtain ⟨slot, placed, inside, isKey⟩ :=
        position_of_owner holds chained fits chained.head_mem chained declared
      have written : Dispatcher.write ⟨hierarchy, options⟩ target field value store =
          ⟨.ok (), store.put target (some { inst with slots := inst.slots.set slot value }),
            []⟩ := by
        simp [Dispatcher.write, Action.update, Store.write, Store.get, live,
          ClassTable.get_of_find? fits.found, Instance.write, placed, bind, Except.bind, pure,
          Except.pure]
      rw [written, owned]
      refine ⟨typed_put live typed _ ?_, ?_, .ok rfl⟩
      · intro changed same
        cases same
        exact ⟨cls, fits.set slot value⟩
      · rw [ofStore_put live, Option.map_some, ofInstance_set holds chained fits isKey,
          ← cls_of_fits fits]
        rfl

/-! ## Methods -/

theorem refines_resolve {cls : Class} (found : hierarchy.classes.find? cls.id = some cls)
    (signature : Signature) :
    Refines hierarchy.classes (Runs hierarchy.classes)
      (Action.lift (hierarchy.resolve cls.id signature))
      (Machine.resolve ⟨decls, options.maxCallDepth⟩ cls.name signature) := by
  obtain ⟨chain, chained⟩ := flat.holds.exists_chain found
  have related := rel_method? flat.holds chained found signature
  rw [flat.resolve_eq found chained, Machine.resolve]
  generalize nearest chain signature = first at related ⊢
  generalize method? decls cls.name signature = twin at related ⊢
  cases related with
  | none => exact refines_raise _
  | some runs => exact refines_pure runs

def Enters (table : ClassTable) (enter : Lineage.Enter) (naive : Enter) : Prop :=
  ∀ receiver cls method found args, table.find? cls.id = some cls → Runs table method found →
    Refines table Eq (enter receiver cls.id method args) (naive receiver found args)

theorem refines_dispatch {enter : Lineage.Enter} {naive : Enter}
    (enters : Enters hierarchy.classes enter naive) (receiver : InstanceNo)
    (signature : Signature) (args : List Value) :
    Refines hierarchy.classes Eq
      (Dispatcher.dispatch ⟨hierarchy, options⟩ enter receiver signature args)
      (Machine.dispatch ⟨decls, options.maxCallDepth⟩ naive receiver signature args) := by
  refine (refines_classOf flat options receiver).bind ?_
  rintro _ object ⟨cls, own, rfl, name⟩
  rw [name]
  refine (refines_resolve flat options own signature).bind ?_
  intro method found runs
  exact enters receiver cls method found args own runs

omit flat in
theorem refines_announce {cls : Class} (found : hierarchy.classes.find? cls.id = some cls)
    {method : Method} {twin : Found} (runs : Runs hierarchy.classes method twin)
    (receiver : InstanceNo) (depth : Nat) :
    Refines hierarchy.classes Eq
      (Dispatcher.announce ⟨hierarchy, options⟩ receiver cls.id method depth) (pure ()) := by
  obtain ⟨owner, made, _, rfl⟩ := runs
  intro store typed
  simp only [Dispatcher.announce, ClassTable.classAt_of_find? found,
    ClassTable.classAt_of_find? made.found, Action.lift_ok_bind]
  exact ⟨typed, rfl, .ok rfl⟩

end Operations

/-! ## Evaluation -/

theorem refines_objectOf (table : ClassTable) (value : Value) :
    Refines table Eq (Lineage.Frame.objectOf value) (objectOf value) := by
  unfold Lineage.Frame.objectOf objectOf
  cases value.object? with
  | none => exact refines_raise _
  | some id => exact refines_pure rfl

/-- Frames in which the same method runs on the same receiver. -/
structure Frames (hierarchy : Hierarchy) (decls : List ClassDecl) (options : Options)
    (frame : Lineage.Frame) (naive : Frame) : Prop where
  dispatcher : frame.dispatcher = ⟨hierarchy, options⟩
  machine : naive.machine = ⟨decls, options.maxCallDepth⟩
  receiver : frame.receiver = naive.receiver
  runs : Runs hierarchy.classes frame.method naive.found
  enters : Enters hierarchy.classes frame.enter naive.enter

section Evaluation
variable {hierarchy : Hierarchy} {decls : List ClassDecl} {options : Options}
  {frame : Lineage.Frame} {naive : Frame} (flat : hierarchy.Flat decls)
  (frames : Frames hierarchy decls options frame naive)
include flat frames

theorem refines_new (cls : String) (domain : Option Domain) :
    Refines hierarchy.classes Eq (frame.allocate cls domain) (naive.allocate cls domain) := by
  cases domain with
  | some domain =>
      rw [Lineage.Frame.allocate, Frame.allocate, frames.dispatcher, frames.machine]
      exact refines_allocate flat options cls domain
  | none =>
      rw [Lineage.Frame.allocate, Frame.allocate, frames.dispatcher, frames.machine,
        Lineage.Frame.domain, frames.receiver]
      refine (refines_domainOf naive.receiver).bind ?_
      rintro _ object rfl
      exact refines_allocate flat options cls object.domain

theorem refines_inherited (signature : Signature) :
    Refines hierarchy.classes (Runs hierarchy.classes)
      (Action.lift (hierarchy.inheritedMethod frame.method.owner signature))
      (naive.inherited signature) := by
  obtain ⟨cls, made, _, isMethod⟩ := frames.runs
  rw [isMethod, Hierarchy.inheritedMethod, ClassTable.classAt_of_find? made.found,
    Frame.inherited, frames.machine, ← made.name]
  cases inherits : cls.parent with
  | none =>
      rw [made.root inherits]
      simp only [bind, Except.bind, inherits]
      exact refines_raise _
  | some upperId =>
      obtain ⟨upper, upperFound, parentName⟩ := made.parent inherits
      have ownId := flat.holds.id_of_find? upperFound
      subst ownId
      rw [parentName]
      simp only [bind, Except.bind, inherits]
      exact refines_resolve flat options upperFound signature

theorem refines_invokeSuper (method : String) (args : List Value) :
    Refines hierarchy.classes Eq (frame.invokeSuper method args)
      (naive.invokeSuper method args) := by
  rw [Lineage.Frame.invokeSuper_eq, Frame.invokeSuper, frames.dispatcher, frames.receiver]
  refine (refines_inherited flat frames ⟨method, args.length⟩).bind ?_
  intro inherited found runs
  refine (refines_classOf flat options naive.receiver).bind ?_
  rintro _ object ⟨cls, own, rfl, _⟩
  exact frames.enters naive.receiver cls inherited found args own runs

set_option linter.unusedSectionVars false

variable (args : List Value)

mutual

theorem refines_eval : (expr : Expr) →
    Refines hierarchy.classes Eq (frame.eval args expr) (naive.eval args expr)
  | .lit value => by
      rw [Lineage.Frame.eval, Frame.eval]
      exact refines_pure rfl
  | .this => by
      rw [Lineage.Frame.eval, Frame.eval, frames.receiver]
      exact refines_pure rfl
  | .arg index => by
      rw [Lineage.Frame.eval, Frame.eval]
      obtain ⟨cls, made, _, isMethod⟩ := frames.runs
      cases args[index]? with
      | none =>
          rw [isMethod]
          exact refines_raise _
      | some value => exact refines_pure rfl
  | .new cls domain => by
      rw [Lineage.Frame.eval, Frame.eval]
      refine (refines_new flat frames cls domain).bind_eq ?_
      intro id
      exact refines_pure rfl
  | .get target field => by
      rw [Lineage.Frame.eval, Frame.eval]
      refine (refines_eval target).bind_eq ?_
      intro value
      refine (refines_objectOf _ value).bind_eq ?_
      intro id
      rw [frames.dispatcher, frames.machine]
      exact refines_read flat options id field
  | .set target field value => by
      rw [Lineage.Frame.eval, Frame.eval]
      refine (refines_eval target).bind_eq ?_
      intro targetValue
      refine (refines_objectOf _ targetValue).bind_eq ?_
      intro id
      refine (refines_eval value).bind_eq ?_
      intro stored
      rw [frames.dispatcher, frames.machine]
      refine (refines_write flat options id field stored).bind_eq ?_
      intro _
      exact refines_pure rfl
  | .invoke target method operands => by
      rw [Lineage.Frame.eval, Frame.eval]
      refine (refines_eval target).bind_eq ?_
      intro value
      refine (refines_objectOf _ value).bind_eq ?_
      intro id
      refine (refines_evalAll operands).bind_eq ?_
      intro values
      rw [Lineage.Frame.invoke, frames.dispatcher, frames.machine]
      exact refines_dispatch flat options frames.enters id _ values
  | .super method operands => by
      rw [Lineage.Frame.eval, Frame.eval]
      refine (refines_evalAll operands).bind_eq ?_
      intro values
      exact refines_invokeSuper flat frames method values
  | .seq steps => by
      rw [Lineage.Frame.eval, Frame.eval]
      exact refines_evalLast .nil steps

theorem refines_evalAll : (exprs : List Expr) →
    Refines hierarchy.classes Eq (frame.evalAll args exprs) (naive.evalAll args exprs)
  | [] => by
      rw [Lineage.Frame.evalAll, Frame.evalAll]
      exact refines_pure rfl
  | expr :: rest => by
      rw [Lineage.Frame.evalAll, Frame.evalAll]
      refine (refines_eval expr).bind_eq ?_
      intro value
      refine (refines_evalAll rest).bind_eq ?_
      intro values
      exact refines_pure rfl

theorem refines_evalLast (last : Value) : (exprs : List Expr) →
    Refines hierarchy.classes Eq (frame.evalLast args last exprs)
      (naive.evalLast args last exprs)
  | [] => by
      rw [Lineage.Frame.evalLast, Frame.evalLast]
      exact refines_pure rfl
  | expr :: rest => by
      rw [Lineage.Frame.evalLast, Frame.evalLast]
      refine (refines_eval expr).bind_eq ?_
      intro value
      exact refines_evalLast value rest

end

end Evaluation

/-! ## Calls -/

theorem isExpr_of_runs {hierarchy : Hierarchy} (plain : hierarchy.Plain) {method : Method}
    {found : Found} (runs : Runs hierarchy.classes method found) : method.body.isExpr = true := by
  obtain ⟨cls, made, declared, isMethod⟩ := runs
  have inMethods : method ∈ cls.methods := by
    rw [made.methods, isMethod]
    exact List.mem_map_of_mem declared
  exact plain.isExpr_of_find? made.found inMethods

section Calls
variable {hierarchy : Hierarchy} {decls : List ClassDecl} (flat : hierarchy.Flat decls)
  (plain : hierarchy.Plain) (options : Options)
include flat plain

theorem refines_run (remaining : Nat) :
    Enters hierarchy.classes (Dispatcher.run ⟨hierarchy, options⟩ remaining)
      (Machine.run ⟨decls, options.maxCallDepth⟩ remaining) := by
  induction remaining with
  | zero =>
      intro receiver cls method found args own runs
      exact refines_raise _
  | succ remaining ih =>
      intro receiver cls method found args own runs
      have frames : Frames hierarchy decls options
          (Dispatcher.frameAt ⟨hierarchy, options⟩ remaining receiver method)
          ⟨⟨decls, options.maxCallDepth⟩, Machine.run ⟨decls, options.maxCallDepth⟩ remaining,
            receiver, found⟩ := ⟨rfl, rfl, rfl, runs, ih⟩
      obtain ⟨body, isBody⟩ := exists_expr_of_isExpr (isExpr_of_runs plain runs)
      have naiveBody : found.method.body = .expr body := by
        obtain ⟨owner, _, _, isMethod⟩ := runs
        rw [← isBody, isMethod]
      rw [Dispatcher.run_succ_of_expr _ _ _ _ _ _ isBody]
      simp only [Machine.run, naiveBody]
      exact (refines_announce options own runs receiver _).bind fun _ _ _ =>
        refines_eval flat frames args body

/-- The reference that the interpreter has in place of one of the engine. -/
def Refers (table : ClassTable) (reference : Lineage.Reference) (naive : Reference) : Prop :=
  ∃ cls, table.find? cls.id = some cls ∧ reference.staticType = cls.id ∧
    naive = ⟨reference.target, cls.name⟩

theorem refines_invoke {reference : Lineage.Reference} {naive : Reference}
    (refers : Refers hierarchy.classes reference naive) (signature : Signature)
    (args : List Value) :
    Refines hierarchy.classes Eq
      (Dispatcher.invoke ⟨hierarchy, options⟩ reference signature args)
      (Machine.invoke ⟨decls, options.maxCallDepth⟩ naive signature args) := by
  obtain ⟨cls, own, isStatic, rfl⟩ := refers
  have parts : Dispatcher.invoke ⟨hierarchy, options⟩ reference signature args =
      (Action.lift (hierarchy.resolve cls.id signature) >>= fun _ =>
        Dispatcher.dispatch ⟨hierarchy, options⟩ (Dispatcher.runHost ⟨hierarchy, options⟩)
          reference.target signature args) := by
    rw [Dispatcher.invoke_eq, isStatic, hierarchy.permits_eq_map]
    cases hierarchy.resolve cls.id signature <;> rfl
  rw [parts, Machine.invoke]
  refine (refines_resolve flat options own signature).bind fun _ _ _ => ?_
  exact refines_dispatch flat options (refines_run flat plain options _) _ signature args

end Calls

end Lineage.Naive
