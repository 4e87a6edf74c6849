import Lineage.Proofs.Call.Evaluation
import Lineage.Proofs.Call.Rewriting

/-!
# Another body for a method

A method that is given another body matters to the calls that dispatch to it and to no
others.  The actions of the edited hierarchy are those of the first one as far as these
report no dispatch to an edited method (`SameUnless`); every step has this property,
sequencing keeps it, and a method that starts is reported before its body runs, so it
holds of whole calls (`invoke_edit`).
-/

set_option autoImplicit false

namespace Lineage

/-- The event reports that one of these methods begins to run. -/
def Event.DispatchesTo (edited : String → Signature → Prop) : Event → Prop
  | .dispatched _ _ _ method owner _ => edited owner method
  | _ => False

/-- The second action does what the first does on every store on which the first one
reports no dispatch to these methods. -/
def Action.SameUnless (edited : String → Signature → Prop) {α : Type} (one other : Action α) :
    Prop :=
  ∀ store, (∀ event ∈ (one store).events, ¬ event.DispatchesTo edited) →
    other store = one store

namespace Action.SameUnless

variable {edited : String → Signature → Prop} {α β : Type}

theorem refl (action : Action α) : SameUnless edited action action := fun _ _ => rfl

theorem bind {one other : Action α} {next after : α → Action β}
    (first : SameUnless edited one other)
    (rest : ∀ value, SameUnless edited (next value) (after value)) :
    SameUnless edited (one >>= next) (other >>= after) := by
  intro store avoids
  rcases run : one store with ⟨failure | value, reached, events⟩
  · rw [run_bind_of_error run] at avoids ⊢
    have same := first store (run ▸ avoids)
    exact run_bind_of_error (same.trans run) after
  · rw [run_bind_of_ok run] at avoids ⊢
    have same := first store fun event inFirst => avoids event (by
      rw [run] at inFirst
      exact List.mem_append_left _ inFirst)
    have sameAfter := rest value reached fun event inRest =>
      avoids event (List.mem_append_right _ inRest)
    rw [run_bind_of_ok (same.trans run), sameAfter]

theorem attempt {one other : Action α} (same : SameUnless edited one other) :
    SameUnless edited (Action.attempt one) (Action.attempt other) := by
  intro store avoids
  have sameEvents : (Action.attempt one store).events = (one store).events := by
    unfold Action.attempt
    rcases one store with ⟨(_ | _) | _, _, _⟩ <;> rfl
  unfold Action.attempt
  rw [same store (sameEvents ▸ avoids)]

end Action.SameUnless

open Action (SameUnless)

section Rewritten
variable {edited : String → Signature → Prop} {change : Rewriting} {dispatcher : Dispatcher}

/-- Two ways of running methods, the second of which is given the rewritten ones. -/
def EntersUnless (edited : String → Signature → Prop) (change : Rewriting)
    (enter other : Enter) : Prop :=
  ∀ receiver cls method args,
    SameUnless edited (enter receiver cls method args)
      (other receiver cls (method.rewrite change) args)

theorem Dispatcher.sameUnless_dispatch {enter other : Enter}
    (enters : EntersUnless edited change enter other) (receiver : InstanceNo)
    (signature : Signature) (args : List Value) :
    SameUnless edited (dispatcher.dispatch enter receiver signature args)
      ((dispatcher.rewrite change).dispatch other receiver signature args) := by
  unfold Dispatcher.dispatch
  rw [classOf_rewrite, hierarchy_rewrite]
  refine .bind (.refl _) fun cls => ?_
  rw [Hierarchy.resolve_rewrite]
  cases dispatcher.hierarchy.resolve cls signature with
  | error failure => exact .refl _
  | ok method => exact enters receiver cls method args

/-- A frame and the one of the same method through the rewritten hierarchy. -/
theorem Frame.accord_rewrite {frame : Frame} {other : Enter}
    (enters : EntersUnless edited change frame.enter other) :
    Accord id (SameUnless edited) frame
      { frame with dispatcher := frame.dispatcher.rewrite change, enter := other } where
  receiver := rfl
  signature := rfl
  lift _ := .refl _
  bind := .bind
  read id field := by
    rw [Dispatcher.read_rewrite]
    exact .refl _
  write id field value := by
    rw [Dispatcher.write_rewrite]
    exact .refl _
  allocate cls domain := by
    rw [allocate_eq, allocate_eq, id, Dispatcher.allocateFor_rewrite]
    exact .refl _
  invoke target method args := Dispatcher.sameUnless_dispatch enters target _ args
  invokeSuper method args := by
    rw [invokeSuper_eq, invokeSuper_eq, Dispatcher.hierarchy_rewrite,
      Hierarchy.inheritedMethod_rewrite, Dispatcher.classOf_rewrite]
    cases frame.dispatcher.hierarchy.inheritedMethod frame.method.owner
      ⟨method, args.length⟩ with
    | error failure => exact .refl _
    | ok inherited =>
        rw [Except.map, Action.lift_ok_bind, Action.lift_ok_bind]
        exact .bind (.refl _) fun cls => enters frame.receiver cls inherited args

theorem Frame.serves_rewrite {frame : Frame} {other : Enter} :
    Serves (SameUnless edited) frame
      { frame with dispatcher := frame.dispatcher.rewrite change, enter := other } where
  depth := rfl
  attempt := .attempt
  domain := .refl _
  allocate cls domain := by
    rw [allocate_eq, allocate_eq, Dispatcher.allocateFor_rewrite]
    exact .refl _

/-- The methods that are not edited keep their bodies. -/
def Hierarchy.Keeps (hierarchy : Hierarchy) (edited : String → Signature → Prop)
    (change : Rewriting) : Prop :=
  ∀ (method : Method) (owner : Class), hierarchy.classes.classAt method.owner = .ok owner →
    ¬ edited owner.name method.signature → method.rewrite change = method

/-- A method that starts is reported, unless one of the two classes is not known. -/
theorem Dispatcher.announced_cases (dispatcher : Dispatcher) (receiver : InstanceNo)
    (id : ClassId) (method : Method) (depth : Nat) :
    (∃ failure, dispatcher.announced receiver id method depth = Action.lift (.error failure)) ∨
      ∃ cls owner, dispatcher.hierarchy.classes.classAt method.owner = .ok owner ∧
        dispatcher.announced receiver id method depth =
          (Action.emit (.dispatched dispatcher.dispatchLevel receiver cls method.signature
            owner.name depth) >>= fun _ => pure owner.name) := by
  unfold announced
  dsimp only
  cases exact : dispatcher.hierarchy.classes.classAt id with
  | error failure => exact .inl ⟨failure, rfl⟩
  | ok cls =>
      cases declaring : dispatcher.hierarchy.classes.classAt method.owner with
      | error failure => exact .inl ⟨failure, rfl⟩
      | ok owner => exact .inr ⟨cls.name, owner, rfl, rfl⟩

theorem Dispatcher.sameUnless_run (keeps : dispatcher.hierarchy.Keeps edited change)
    (remaining : Nat) :
    EntersUnless edited change (dispatcher.run remaining)
      ((dispatcher.rewrite change).run remaining) := by
  induction remaining with
  | zero => exact fun _ _ _ _ => .refl _
  | succ remaining ih =>
      intro receiver cls method args
      have sameOptions : (dispatcher.rewrite change).options = dispatcher.options := rfl
      rw [run_succ_eq, run_succ_eq, sameOptions, announced_rewrite]
      obtain ⟨failure, failed⟩ | ⟨exact, owner, declaring, reported⟩ :=
        dispatcher.announced_cases receiver cls method
          (dispatcher.options.maxCallDepth - (remaining + 1))
      · rw [failed]
        exact .refl _
      · rw [reported, bind_assoc, bind_assoc]
        intro store avoids
        -- the report comes first, so the method that starts here is not an edited one
        have notEdited : ¬ edited owner.name method.signature := by
          rw [Action.run_bind_of_ok (Action.run_emit _ store)] at avoids
          exact avoids _ (List.mem_append_left _ (List.mem_singleton_self _))
        rw [keeps method owner declaring notEdited]
        refine SameUnless.bind (.refl _) (fun _ => ?_) store avoids
        exact (Frame.accord_rewrite ih).runBody args (Body.mapMarks_id _).symm
          (.inr Frame.serves_rewrite) owner.name

theorem Dispatcher.sameUnless_invoke (keeps : dispatcher.hierarchy.Keeps edited change)
    (reference : Reference) (signature : Signature) (args : List Value) :
    SameUnless edited (dispatcher.invoke reference signature args)
      ((dispatcher.rewrite change).invoke reference signature args) := by
  rw [invoke_eq, invoke_eq, hierarchy_rewrite, Hierarchy.permits_rewrite]
  refine .bind (.refl _) fun _ => ?_
  exact sameUnless_dispatch (sameUnless_run keeps dispatcher.options.maxCallDepth) _ _ _

end Rewritten

/-! ## Editing definitions -/

def MethodDecl.edit (signature : Signature) (body : Body) (decl : MethodDecl) : MethodDecl :=
  if decl.signature = signature then { decl with body := body } else decl

/-- The definition with another body for one of its methods, if it is of that class. -/
def ClassDecl.edit (cls : String) (signature : Signature) (body : Body) (decl : ClassDecl) :
    ClassDecl :=
  if decl.name = cls then { decl with methods := decl.methods.map (.edit signature body) }
  else decl

/-- Another body for one method of one class. -/
def Rewriting.edit (id : ClassId) (signature : Signature) (body : Body) : Rewriting :=
  fun owner other old => if owner = id ∧ other = signature then body else old

section Edits
variable {cls : String} {signature : Signature} {body : Body} {id : ClassId}

theorem MethodDecl.rewrite_edit (decl : MethodDecl) :
    decl.rewrite (.edit id signature body) id = decl.edit signature body := by
  unfold rewrite edit Rewriting.edit
  by_cases same : decl.signature = signature
  · rw [if_pos ⟨rfl, same⟩, if_pos same]
  · rw [if_neg fun both => same both.2, if_neg same]

theorem MethodDecl.rewrite_edit_of_ne {owner : ClassId} (differs : owner ≠ id)
    (decl : MethodDecl) : decl.rewrite (.edit id signature body) owner = decl := by
  unfold rewrite Rewriting.edit
  rw [if_neg fun both => differs both.1]

theorem ClassDecl.rewrite_edit {owner : ClassId} {decl : ClassDecl}
    (named : owner = id ↔ decl.name = cls) :
    decl.rewrite (.edit id signature body) owner = decl.edit cls signature body := by
  unfold rewrite edit
  by_cases same : decl.name = cls
  · rw [if_pos same, named.mpr same]
    exact congrArg (fun methods => { decl with methods := methods })
      (List.map_congr_left fun method _ => MethodDecl.rewrite_edit method)
  · rw [if_neg same]
    have sameMethods : decl.methods.map (.rewrite (.edit id signature body) owner) =
        decl.methods :=
      List.map_id'' (MethodDecl.rewrite_edit_of_ne fun isId => same (named.mp isId)) _
    rw [sameMethods]

/-- The identity that tells the class of a name from all others, whether there is such a
class or not. -/
theorem ClassTable.Holds.exists_named {table : ClassTable} {decls : List ClassDecl}
    (holds : table.Holds decls) (cls : String) :
    ∃ id : ClassId, ∀ (index : Nat) (decl : ClassDecl), decls[index]? = some decl →
      (⟨table.tag, index⟩ = id ↔ decl.name = cls) := by
  by_cases isDeclared : ∃ (index : Nat) (decl : ClassDecl),
      decls[index]? = some decl ∧ decl.name = cls
  · obtain ⟨index, decl, listed, named⟩ := isDeclared
    refine ⟨⟨table.tag, index⟩, fun other otherDecl otherListed => ⟨?_, ?_⟩⟩
    · intro same
      cases same
      rw [Option.some.inj (otherListed.symm.trans listed), named]
    · intro otherNamed
      rw [holds.index_eq_of_name_eq otherListed listed (otherNamed.trans named.symm)]
  · refine ⟨⟨table.tag, decls.length⟩, fun index decl listed => ⟨?_, ?_⟩⟩
    · intro beyond
      cases beyond
      exact absurd (List.getElem?_eq_some_iff.mp listed).1 (Nat.lt_irrefl _)
    · intro named
      exact absurd ⟨index, decl, listed, named⟩ isDeclared

/-- Editing the definitions is rewriting one body, that of a method of a class with the
name. -/
theorem ClassTable.Holds.exists_edit {table : ClassTable} {decls : List ClassDecl}
    (holds : table.Holds decls) (cls : String) (signature : Signature) (body : Body) :
    ∃ id, decls.map (.edit cls signature body) =
        ClassDecl.rewriteAll (.edit id signature body) table.tag decls ∧
      ∀ owner, table.find? id = some owner → owner.name = cls := by
  obtain ⟨id, named⟩ := holds.exists_named cls
  refine ⟨id, ?_, ?_⟩
  · unfold ClassDecl.rewriteAll
    apply List.ext_getElem?
    intro index
    rw [List.getElem?_map, List.getElem?_mapIdx]
    cases listed : decls[index]? with
    | none => rfl
    | some decl => exact congrArg some (ClassDecl.rewrite_edit (named index decl listed)).symm
  · intro owner found
    obtain ⟨decl, parent, listed, placed⟩ := holds.placed_of_find? found
    have isId : (⟨table.tag, id.index⟩ : ClassId) = id := by
      rw [← ((table.find?_eq_some_iff id owner).mp found).1]
    rw [placed.name_eq]
    exact (named id.index decl listed).mp isId

theorem Hierarchy.keeps_edit {hierarchy : Hierarchy}
    (named : ∀ owner, hierarchy.classes.find? id = some owner → owner.name = cls) :
    hierarchy.Keeps (fun owner method => owner = cls ∧ method = signature)
      (.edit id signature body) := by
  intro method owner declaring notEdited
  unfold Method.rewrite Rewriting.edit
  rw [if_neg]
  rintro ⟨isId, sameSignature⟩
  rw [isId, ClassTable.classAt_eq_ok_iff] at declaring
  exact notEdited ⟨named owner declaring, sameSignature⟩

end Edits

/-- Another body for one method of one class changes nothing about a call that reports no
dispatch to that method: outcome, reports and store stay the same. -/
theorem Dispatcher.invoke_edit {tag : Nat} {decls : List ClassDecl} {hierarchy other : Hierarchy}
    (cls : String) (signature : Signature) (body : Body)
    (built : Hierarchy.build tag decls = .ok hierarchy)
    (rebuilt : Hierarchy.build tag (decls.map (.edit cls signature body)) = .ok other)
    (options : Options) (reference : Reference) (called : Signature) (args : List Value)
    (store : Store)
    (avoids : ∀ level receiver exact depth, .dispatched level receiver exact signature cls depth ∉
      (invoke ⟨hierarchy, options⟩ reference called args store).events) :
    invoke ⟨other, options⟩ reference called args store =
      invoke ⟨hierarchy, options⟩ reference called args store := by
  have holds := (Hierarchy.flat_of_build built).holds
  obtain ⟨id, sameDecls, named⟩ := holds.exists_edit cls signature body
  have isRewritten : other = hierarchy.rewrite (.edit id signature body) := by
    rw [sameDecls, Hierarchy.tag_of_build built, Hierarchy.build_rewriteAll, built] at rebuilt
    exact (Except.ok.inj rebuilt).symm
  rw [isRewritten]
  have keeps : (Dispatcher.mk hierarchy options).hierarchy.Keeps
      (fun owner method => owner = cls ∧ method = signature) (.edit id signature body) :=
    Hierarchy.keeps_edit named
  refine sameUnless_invoke keeps reference called args store ?_
  rintro (_ | _ | _ | _ | ⟨level, receiver, exact, method, owner, depth⟩) inRun edited
  case dispatched =>
    obtain ⟨rfl, rfl⟩ := edited
    exact avoids level receiver exact depth inRun
  all_goals exact edited

/-- The sample with leaves that do nothing when they are linked. -/
def idleDecls : List ClassDecl := sampleDecls.map (.edit "Leaf" ⟨"link", 1⟩ (.expr .this))

def idleHierarchy : Hierarchy :=
  match Hierarchy.build 1 idleDecls with
  | .ok hierarchy => hierarchy
  | .error _ => ⟨.empty 1, #[]⟩

/-- A node that grows links a leaf, so it is told whether leaves do something then; a node
that is linked itself is not. -/
theorem link_of_idleHierarchy :
    let grow (hierarchy : Hierarchy) :=
      Dispatcher.invoke ⟨hierarchy, {}⟩ ⟨1, ⟨1, 0⟩⟩ ⟨"grow", 0⟩ [] sampleStore
    let link (hierarchy : Hierarchy) :=
      Dispatcher.invoke ⟨hierarchy, {}⟩ ⟨1, ⟨1, 0⟩⟩ ⟨"link", 1⟩ [.object 2] sampleStore
    Hierarchy.build 1 sampleDecls = .ok sampleHierarchy ∧
      Hierarchy.build 1 idleDecls = .ok idleHierarchy ∧
      (grow sampleHierarchy).result = refuse (.noSuchMethod "Leaf" ⟨"cut", 0⟩) ∧
      (grow idleHierarchy).result = .ok (.object 4) ∧
      (∀ level receiver exact depth,
        .dispatched level receiver exact ⟨"link", 1⟩ "Leaf" depth ∉ (link sampleHierarchy).events) ∧
      link idleHierarchy = link sampleHierarchy := by
  intro grow link
  have built : Hierarchy.build 1 sampleDecls = .ok sampleHierarchy := rfl
  have rebuilt : Hierarchy.build 1 idleDecls = .ok idleHierarchy := rfl
  have events : (link sampleHierarchy).events =
      [.dispatched .trace 1 "Node" ⟨"link", 1⟩ "Node" 0] := rfl
  have avoids : ∀ level receiver exact depth,
      .dispatched level receiver exact ⟨"link", 1⟩ "Leaf" depth ∉
        (link sampleHierarchy).events := by
    simp [events]
  exact ⟨built, rebuilt, rfl, rfl, avoids,
    Dispatcher.invoke_edit "Leaf" _ _ built rebuilt {} _ _ _ sampleStore avoids⟩

end Lineage
