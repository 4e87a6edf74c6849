import Lineage.Proofs.Call.Ascent

/-!
# Calls that nothing overrides

A super call resolves from the parent of the declaring class and then looks at the
receiver; a virtual call on the receiver looks at it first and resolves from its exact
class.  Where no class from the exact class up to the declaring class declares the method,
both come upon the same one (`Flat.resolve_eq_inheritedMethod`), and so on any store on
which the receiver is there the two calls are the same (`invokeSuper_eq_invoke`).  The
receiver outlasts the evaluation of the operands, whatever they do, so the expressions have
the same effect (`eval_super_eq_eval_invoke`).
-/

set_option autoImplicit false

namespace Lineage

namespace Hierarchy

variable {hierarchy : Hierarchy} {decls : List ClassDecl}

/-- Past classes that do not declare the signature, the exact class understands it as what
the declaring class inherits. -/
theorem Flat.resolve_eq_inheritedMethod (flat : hierarchy.Flat decls) {exact declaring : Class}
    {below above : List Class} (found : hierarchy.classes.find? exact.id = some exact)
    (chained : hierarchy.classes.Chain exact (below ++ declaring :: above))
    {signature : Signature}
    (undeclared : ∀ cls ∈ below ++ [declaring], cls.declares signature = false)
    (inherited : ∃ cls ∈ above, cls.declares signature = true) :
    ∃ method, hierarchy.resolve exact.id signature = .ok method ∧
      hierarchy.inheritedMethod declaring.id signature = .ok method := by
  have split : below ++ declaring :: above = (below ++ [declaring]) ++ above := by simp
  have passed : nearest (below ++ declaring :: above) signature = nearest above signature := by
    rw [split, nearest_append undeclared]
  obtain ⟨method, isNearest⟩ : ∃ method, nearest above signature = some method := by
    refine Option.ne_none_iff_exists'.mp fun nothing => ?_
    obtain ⟨cls, isAbove, declares⟩ := inherited
    rw [(nearest_eq_none_iff above signature).mp nothing cls isAbove] at declares
    cases declares
  have declaringFound : hierarchy.classes.find? declaring.id = some declaring :=
    chained.find?_of_mem flat.holds found (List.mem_append_right below List.mem_cons_self)
  refine ⟨method, ?_, ?_⟩
  · rw [flat.resolve_eq found chained, passed, isNearest]
  · rcases chained.root_or_above with ⟨_, nothing⟩ | ⟨parent, upper, inherits, upperFound, rest⟩
    · subst nothing
      obtain ⟨cls, impossible, _⟩ := inherited
      cases impossible
    · rw [inheritedMethod_of_parent declaringFound inherits, flat.resolve_eq upperFound rest,
        isNearest]

end Hierarchy

namespace Frame

/-- As many operands as are evaluated are passed on. -/
theorem length_of_evalAll {frame : Frame} {args : List Value} {operands : List Expr}
    {store reached : Store} {values : List Value} {events : List Event}
    (run : frame.evalAll args operands store = ⟨.ok values, reached, events⟩) :
    values.length = operands.length := by
  induction operands generalizing store values reached events with
  | nil =>
      rw [evalAll] at run
      cases run
      rfl
  | cons operand rest ih =>
      rw [evalAll] at run
      rcases first : frame.eval args operand store with ⟨failure | value, middle, early⟩
      · rw [Action.run_bind_of_error first] at run
        cases run
      · rw [Action.run_bind_of_ok first] at run
        rcases others : frame.evalAll args rest middle with ⟨failure | later, last, late⟩
        · rw [Action.run_bind_of_error others] at run
          cases run
        · rw [Action.run_bind_of_ok others] at run
          cases run
          rw [List.length_cons, List.length_cons, ih others]

section Agreement
variable {frame : Frame} {decls : List ClassDecl}
  (flat : frame.dispatcher.hierarchy.Flat decls) {exact declaring : Class}
  {below above : List Class}
  (found : frame.dispatcher.hierarchy.classes.find? exact.id = some exact)
  (chained : frame.dispatcher.hierarchy.classes.Chain exact (below ++ declaring :: above))
  (declared : frame.method.owner = declaring.id)
include flat found chained declared

/-- On a receiver of the exact class the two calls enter the same method. -/
theorem invokeSuper_eq_invoke {store : Store}
    (live : ∃ inst, store.find? frame.receiver = some inst ∧ inst.cls = exact.id)
    {name : String} {values : List Value}
    (undeclared : ∀ cls ∈ below ++ [declaring], cls.declares ⟨name, values.length⟩ = false)
    (inherited : ∃ cls ∈ above, cls.declares ⟨name, values.length⟩ = true) :
    frame.invokeSuper name values store = frame.invoke frame.receiver name values store := by
  obtain ⟨inst, isLive, isExact⟩ := live
  have exactFound : frame.dispatcher.hierarchy.classes.find? inst.cls = some exact := by
    rw [isExact, found]
  obtain ⟨method, resolved, isInherited⟩ :=
    flat.resolve_eq_inheritedMethod found chained undeclared inherited
  have virtual : frame.invoke frame.receiver name values store =
      frame.enter frame.receiver exact.id method values store := by
    unfold invoke
    rw [Dispatcher.dispatch_of_live _ _ _ isLive exactFound, resolved, Action.lift_ok_bind]
  rw [virtual, invokeSuper_eq, declared, isInherited, Action.lift_ok_bind,
    Action.run_bind_of_ok (Dispatcher.classOf_of_live isLive exactFound)]
  rfl

end Agreement

/-- In a frame on a receiver of an exact class, for a method that no class from this class
up to the declaring class declares but some class above does, a super call and a virtual
call on the receiver with the same operands have the same outcome, events and store. -/
theorem eval_super_eq_eval_invoke {hierarchy : Hierarchy} (isSealed : hierarchy.Sealed)
    (options : Options) (remaining depth : Nat) {receiver : InstanceNo} {method : Method}
    {store : Store} {inst : Instance} (live : store.find? receiver = some inst)
    {below above : List Class} {declaring : Class}
    (chain : hierarchy.classes.ancestors inst.cls = .ok (below ++ declaring :: above))
    (declared : method.owner = declaring.id) {name : String} {operands : List Expr}
    (undeclared : ∀ cls ∈ below ++ [declaring], cls.declares ⟨name, operands.length⟩ = false)
    (inherited : ∃ cls ∈ above, cls.declares ⟨name, operands.length⟩ = true)
    (args : List Value) :
    let dispatcher : Dispatcher := ⟨hierarchy, options⟩
    let frame : Frame := ⟨dispatcher, dispatcher.run remaining, receiver, method, depth⟩
    frame.eval args (.super name operands) store =
      frame.eval args (.invoke .this name operands) store := by
  intro dispatcher frame
  obtain ⟨decls, flat⟩ := isSealed.exists_flat
  obtain ⟨exact, found, chained⟩ := flat.holds.chain_of_ancestors chain
  have isExact := flat.holds.id_of_find? found
  have exactFound : hierarchy.classes.find? exact.id = some exact := isExact ▸ found
  rw [eval, eval, eval]
  change (frame.evalAll args operands >>= fun values => frame.invokeSuper name values) store =
    (frame.evalAll args operands >>= fun values => frame.invoke receiver name values) store
  rcases run : frame.evalAll args operands store with ⟨failure | values, reached, events⟩
  · rw [Action.run_bind_of_error run, Action.run_bind_of_error run]
  · have sameCount := length_of_evalAll run
    -- the operands may do anything but end the life of the receiver
    have course := (Dispatcher.accord_through flat remaining frame rfl rfl).evalAll args operands
      store
    rw [run] at course
    obtain ⟨now, nowLive, same⟩ :=
      ((Store.steady_lasts _).of_course course).kept receiver inst live not_false
    have agree := frame.invokeSuper_eq_invoke flat exactFound chained declared
      ⟨now, nowLive, same.cls.trans isExact.symm⟩ (sameCount ▸ undeclared) (sameCount ▸ inherited)
    rw [Action.run_bind_of_ok run, Action.run_bind_of_ok run, agree]

end Frame

/-! ## A maker -/

/-- A maker hands a new instance to what it inherits; its heir declares nothing. -/
def holderDecl : ClassDecl :=
  { name := "Holder"
    fields := [⟨"held", .nil⟩]
    methods := [⟨"hold", 1, .expr (.set .this "held" (.arg 0))⟩] }

def makerDecl : ClassDecl :=
  { name := "Maker"
    parent := some "Holder"
    methods := [⟨"make", 0, .expr (.super "hold" [.new "Heir" none])⟩] }

def heirDecl : ClassDecl := { name := "Heir", parent := some "Maker" }

def holder : Class := .ofDecl ⟨1, 0⟩ none holderDecl

def maker : Class := .ofDecl ⟨1, 1⟩ (some holder) makerDecl

def heir : Class := .ofDecl ⟨1, 2⟩ (some maker) heirDecl

def makerHierarchy : Hierarchy :=
  match Hierarchy.build 1 [holderDecl, makerDecl, heirDecl] with
  | .ok hierarchy => hierarchy
  | .error _ => ⟨.empty 1, #[]⟩

/-- On an heir the maker's method may go to the parent or call itself: either way the new
instance is held, by the method of the holder. -/
theorem make_either_way :
    let dispatcher : Dispatcher := ⟨makerHierarchy, { maxCallDepth := 2 }⟩
    let store : Store := ⟨#[some ⟨⟨1, 2⟩, .managed, [.nil]⟩]⟩
    let make : Method := ⟨⟨1, 1⟩, ⟨"make", 0⟩, .expr (.super "hold" [.new "Heir" none])⟩
    let frame : Frame := ⟨dispatcher, dispatcher.run 1, 1, make, 0⟩
    let super := frame.eval [] (.super "hold" [.new "Heir" none]) store
    makerHierarchy.Sealed ∧ super = frame.eval [] (.invoke .this "hold" [.new "Heir" none]) store ∧
      super.result = .ok (.object 2) ∧
      super.dispatches = [⟨1, "Heir", ⟨"hold", 1⟩, "Holder", 1⟩] := by
  intro dispatcher store make frame super
  have isSealed : makerHierarchy.Sealed := ⟨1, [holderDecl, makerDecl, heirDecl], rfl⟩
  have chain : makerHierarchy.classes.ancestors ⟨1, 2⟩ = .ok ([heir] ++ maker :: [holder]) := rfl
  have undeclared : ∀ cls ∈ [heir] ++ [maker], cls.declares ⟨"hold", 1⟩ = false := by decide
  have inherited : ∃ cls ∈ [holder], cls.declares ⟨"hold", 1⟩ = true := by decide
  refine ⟨isSealed, ?_, by decide +kernel, by decide +kernel⟩
  exact Frame.eval_super_eq_eval_invoke isSealed _ 1 0 rfl chain rfl undeclared inherited []

end Lineage
