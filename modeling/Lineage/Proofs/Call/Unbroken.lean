import Lineage.Proofs.Call.Entry

/-!
# No breach within a call

A breach is the use of an unchecked operation outside its contract: a class identity of
another table, a dispatch table or a slot that is not there.  Checked operations never come
to one.  On tables and stores this follows from what a table holds (`Holds`), with
instances and identities of other tables allowed.  Within calls the facts that unchecked
look-ups rely on are those that are known wherever a method starts (`Starts`), whatever its
body does: `unbroken_run` is the induction on the nesting, and `unbroken_invoke` is for calls
of the host.
-/

set_option autoImplicit false

namespace Lineage

/-- The outcome is an answer or a fault. -/
abbrev Unbroken {α : Type} (outcome : Outcome α) : Prop := Spares (· = .breach) outcome

theorem unbroken_iff {α : Type} (outcome : Outcome α) :
    Unbroken outcome ↔ outcome ≠ .error .breach := by
  constructor
  · intro spares broken
    exact spares .breach broken rfl
  · rintro differs failure same rfl
    exact differs same

theorem unbroken_refuse {α : Type} (cause : Fault) : Unbroken (refuse cause : Outcome α) :=
  spares_refuse nofun

theorem onlyOdd_breach : OnlyOdd (· = .breach) := by
  rintro failure rfl
  exact .breach

/-- No instance has to be there. -/
theorem sparesMissing_breach : SparesMissing (· = .breach) := nofun

theorem sparesTables_breach : SparesTables (· = .breach) := onlyOdd_breach.sparesTables

/-! ## Actions -/

namespace Action

variable {α β : Type}

/-- Whatever store the action runs on, it ends without a breach. -/
def Unbroken (action : Action α) : Prop := ∀ store, Lineage.Unbroken (action store).result

theorem unbroken_raise (cause : Fault) : (raise cause : Action α).Unbroken :=
  spares_raise nofun

/-- What comes after an action is needed for values only that the action can have. -/
theorem Unbroken.bind {action : Action α} {next : α → Action β} (first : action.Unbroken)
    (rest : ∀ store value, (action store).result = .ok value → (next value).Unbroken) :
    (action >>= next).Unbroken :=
  Spares.bind first rest

theorem Unbroken.attempt {action : Action α} (first : action.Unbroken) :
    (Action.attempt action).Unbroken := by
  intro store
  have unbroken := first store
  rcases run : action store with ⟨(cause | _) | value, reached, events⟩
  · simp only [Action.attempt, run]
    exact spares_ok _
  · rw [run] at unbroken
    exact absurd rfl (unbroken .breach rfl)
  · simp only [Action.attempt, run]
    exact spares_ok _

end Action

/-! ## Calls -/

/-- Methods that start are run without a breach. -/
def Enter.Unbroken (hierarchy : Hierarchy) (enter : Enter) : Prop :=
  ∀ store receiver exact owner method args, hierarchy.Starts store receiver exact owner method →
    (enter receiver exact.id method args).Unbroken

section Calls
variable {hierarchy : Hierarchy} {decls : List ClassDecl} {options : Options}

theorem Hierarchy.Entry.unbroken {receiver : InstanceNo} {args : List Value}
    {begin : Options → Enter → Action Value}
    (entry : ∀ store, hierarchy.Entry store receiver args begin) {enter : Enter}
    (enters : enter.Unbroken hierarchy) (options : Options) :
    (begin options enter).Unbroken := by
  intro store
  apply (entry store).holds fun effect => Lineage.Unbroken effect.result
  · intro cause
    exact unbroken_refuse cause
  · intro exact owner method starts
    exact enters store receiver exact owner method args starts store

variable (flat : hierarchy.Flat decls)
include flat

section Frames
variable {enter : Enter} (enters : enter.Unbroken hierarchy) {receiver : InstanceNo}
  {method : Method} {depth : Nat}
include enters

/-- No step of a body comes to a breach if the declaring class is of the hierarchy. -/
theorem Frame.accord_unbroken {declaring : Class}
    (found : hierarchy.classes.find? method.owner = some declaring) :
    Frame.Accord id (fun {_} action _ => action.Unbroken)
      ⟨⟨hierarchy, options⟩, enter, receiver, method, depth⟩
      ⟨⟨hierarchy, options⟩, enter, receiver, method, depth⟩ where
  receiver := rfl
  signature := rfl
  lift differs := Action.spares_lift ((unbroken_iff _).mpr differs)
  bind first rest := first.bind fun _ value _ => rest value
  read := Dispatcher.spares_read _ sparesMissing_breach sparesTables_breach
  write := Dispatcher.spares_write _ sparesMissing_breach sparesTables_breach
  allocate cls domain := by
    rw [Frame.allocate_eq]
    exact Dispatcher.spares_allocateFor _ sparesMissing_breach flat sparesTables_breach receiver
      cls domain
  invoke target name args :=
    Hierarchy.Entry.unbroken (flat.entry_dispatch target ⟨name, args.length⟩ args) enters options
  invokeSuper name args :=
    Hierarchy.Entry.unbroken (flat.entry_super found receiver depth name args) enters options

/-- Nor does any body as a whole, be it an expression or one that the host provides. -/
theorem Frame.unbroken_runBody {declaring : Class}
    (found : hierarchy.classes.find? method.owner = some declaring) (owner : String)
    (args : List Value) :
    (Frame.runBody ⟨⟨hierarchy, options⟩, enter, receiver, method, depth⟩ owner args).Unbroken := by
  have accord := @Frame.accord_unbroken hierarchy decls options flat enter enters receiver method
    depth declaring found
  apply accord.runBody args (Body.mapMarks_id _).symm
  right
  exact
    { depth := rfl
      attempt := Action.Unbroken.attempt
      domain := Action.spares_domainOf sparesMissing_breach receiver
      allocate := accord.allocate }

end Frames

namespace Dispatcher

theorem unbroken_run (options : Options) (remaining : Nat) :
    Enter.Unbroken hierarchy (Dispatcher.run ⟨hierarchy, options⟩ remaining) := by
  induction remaining with
  | zero =>
      intro store receiver exact owner method args starts
      exact Action.unbroken_raise _
  | succ remaining ih =>
      intro store receiver exact owner method args starts
      have found : hierarchy.classes.find? method.owner = some owner := by
        rw [starts.owned, starts.ownerFound]
      rw [run_of_starts starts]
      apply Action.Unbroken.bind fun _ => spares_ok ()
      intro _ _ _
      exact Frame.unbroken_runBody flat ih found owner.name args

theorem unbroken_invoke (options : Options) (reference : Reference) (signature : Signature)
    (args : List Value) :
    (Dispatcher.invoke ⟨hierarchy, options⟩ reference signature args).Unbroken := by
  rw [invoke_eq_invokeBy_runHost]
  exact Hierarchy.Entry.unbroken (flat.entry_invokeBy reference signature args)
    (unbroken_run flat options options.maxCallDepth) options

end Dispatcher

end Calls

end Lineage
