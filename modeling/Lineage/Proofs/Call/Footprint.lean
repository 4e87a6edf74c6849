import Lineage.Proofs.Call.Nodes
import Lineage.Proofs.Store.Evolution

/-!
# What calls leave alone

Which instances bodies write to depends on the run; which fields they write and which
classes they make new instances of can be read off the nodes that occur in them.  A
relation between stores that is kept by the writes and the allocations of these nodes
(`Hierarchy.Upholds`) holds between the store before a call and the store after it
(`Hierarchy.Upholds.moves_invoke`).  `upholds_touches` is about the slots of instances
that were there before, `upholds_eq` about hierarchies whose bodies change nothing.
-/

set_option autoImplicit false

namespace Lineage

/-! ## Actions -/

namespace Action

variable {α β : Type} {R : Store → Store → Prop}

/-- Whatever store the action runs on, the relation leads from it to the store that is
left behind. -/
def Moves (R : Store → Store → Prop) (action : Action α) : Prop :=
  ∀ store, R store (action store).store

theorem moves_query (refl : ∀ store, R store store) (ask : Store → Outcome α) :
    (query ask).Moves R :=
  refl

theorem moves_lift (refl : ∀ store, R store store) (outcome : Outcome α) :
    (lift outcome).Moves R :=
  refl

theorem moves_update (refl : ∀ store, R store store) {change : Store → Outcome Store}
    (steady : ∀ store changed, change store = .ok changed → R store changed) :
    (update change).Moves R := by
  intro store
  unfold update
  cases run : change store with
  | error failure => exact refl store
  | ok changed => exact steady store changed run

/-- What comes after an action is needed for values only that the action can have. -/
theorem Moves.bind (trans : ∀ ⦃first second third⦄, R first second → R second third →
    R first third) {action : Action α} {next : α → Action β} (first : action.Moves R)
    (rest : ∀ store value, (action store).result = .ok value → (next value).Moves R) :
    (action >>= next).Moves R := by
  intro store
  have moved := first store
  rcases run : action store with ⟨failure | value, reached, events⟩
  · rw [run] at moved
    rw [run_bind_of_error run]
    exact moved
  · rw [run] at moved
    rw [run_bind_of_ok run]
    have isValue : (action store).result = .ok value := by rw [run]
    exact trans moved (rest store value isValue reached)

end Action

/-! ## Relations that bodies keep -/

/-- A relation from stores to later ones that is kept by what the nodes in the bodies of
the hierarchy write and allocate. -/
structure Hierarchy.Upholds (hierarchy : Hierarchy) (R : Store → Store → Prop) : Prop where
  refl : ∀ store, R store store
  trans : ∀ ⦃first second third⦄, R first second → R second third → R first third
  write : ∀ {field}, hierarchy.Contains (.set field) → ∀ {store changed id value},
    store.write hierarchy.classes id field value = .ok changed → R store changed
  allocate : ∀ {name mark}, hierarchy.Contains (.new name mark) → ∀ {cls},
    hierarchy.classes.lookup name = .ok cls → ∀ store domain, R store (store.allocate cls domain)

/-- The methods that classes of the hierarchy declare are run as the relation says. -/
def Enter.Moves (hierarchy : Hierarchy) (R : Store → Store → Prop) (enter : Enter) : Prop :=
  ∀ receiver exact method owner args, hierarchy.classes.find? method.owner = some owner →
    method ∈ owner.methods → (enter receiver exact method args).Moves R

theorem Enter.Moves.resolved {hierarchy : Hierarchy} {R : Store → Store → Prop} {enter : Enter}
    (enters : enter.Moves hierarchy R) {decls : List ClassDecl} (flat : hierarchy.Flat decls)
    (receiver : InstanceNo) {exact id : ClassId} {signature : Signature} {method : Method}
    (run : hierarchy.resolve id signature = .ok method) (args : List Value) :
    (enter receiver exact method args).Moves R := by
  obtain ⟨_, _, owner, _, _, _, ownerFound, declared, _⟩ := flat.resolve_eq_ok run
  rw [← flat.holds.owner_of_mem ownerFound declared] at ownerFound
  exact enters receiver exact method owner args ownerFound declared

namespace Hierarchy.Upholds

variable {hierarchy : Hierarchy} {R : Store → Store → Prop} (upholds : hierarchy.Upholds R)
  (options : Options)
include upholds

theorem moves_classOf (target : InstanceNo) :
    (Dispatcher.classOf ⟨hierarchy, options⟩ target).Moves R := by
  apply (Action.moves_query upholds.refl _).bind upholds.trans
  intro _ _ _
  apply (Action.moves_lift upholds.refl _).bind upholds.trans
  intro _ cls _
  exact Action.moves_lift upholds.refl (.ok cls.id)

theorem moves_announce (receiver : InstanceNo) (exact : ClassId) (method : Method)
    (depth : Nat) :
    (Dispatcher.announce ⟨hierarchy, options⟩ receiver exact method depth).Moves R := by
  apply (Action.moves_lift upholds.refl _).bind upholds.trans
  intro _ _ _
  apply (Action.moves_lift upholds.refl _).bind upholds.trans
  intro _ _ _
  exact upholds.refl

theorem moves_allocateFor {name : String} {mark : Option Domain}
    (occurs : hierarchy.Contains (.new name mark)) (receiver : InstanceNo) :
    (Dispatcher.allocateFor ⟨hierarchy, options⟩ receiver name mark).Moves R := by
  have allocates : ∀ domain,
      (Dispatcher.allocate ⟨hierarchy, options⟩ name domain).Moves R := by
    intro domain
    apply (Action.moves_lift upholds.refl _).bind upholds.trans
    intro _ cls known store
    exact upholds.allocate occurs known store domain
  cases mark with
  | some domain => exact allocates domain
  | none =>
      apply (Action.moves_query upholds.refl _).bind upholds.trans
      intro _ domain _
      exact allocates domain

section Entering
variable {decls : List ClassDecl} (flat : hierarchy.Flat decls) {enter : Enter}
  (enters : enter.Moves hierarchy R)
include flat enters

theorem moves_dispatch (target : InstanceNo) (signature : Signature) (args : List Value) :
    (Dispatcher.dispatch ⟨hierarchy, options⟩ enter target signature args).Moves R := by
  apply (upholds.moves_classOf options target).bind upholds.trans
  intro _ _ _
  apply (Action.moves_lift upholds.refl _).bind upholds.trans
  intro _ method resolved
  exact enters.resolved flat target resolved args

/-- The nodes of the hierarchy keep the relation in every frame. -/
theorem sustains (receiver : InstanceNo) (method : Method) (depth : Nat) :
    Frame.Sustains (fun {_} action => action.Moves R) hierarchy.Contains
      ⟨⟨hierarchy, options⟩, enter, receiver, method, depth⟩ where
  pure value := Action.moves_lift upholds.refl (.ok value)
  raise _ := Action.moves_lift upholds.refl _
  bind first rest := first.bind upholds.trans fun _ value _ => rest value
  new occurs := by
    rw [Frame.allocate_eq]
    exact upholds.moves_allocateFor options occurs receiver
  get _ _ := Action.moves_query upholds.refl _
  set occurs _ _ := Action.moves_update upholds.refl fun _ _ run => upholds.write occurs run
  invoke _ target args := upholds.moves_dispatch options flat enters target _ args
  super _ args := by
    rw [Frame.invokeSuper_eq]
    apply (Action.moves_lift upholds.refl _).bind upholds.trans
    intro _ inherited isInherited
    obtain ⟨parent, resolved⟩ := Hierarchy.resolve_of_inheritedMethod isInherited
    apply (upholds.moves_classOf options receiver).bind upholds.trans
    intro _ _ _
    exact enters.resolved flat receiver resolved args

end Entering

variable {decls : List ClassDecl} (flat : hierarchy.Flat decls) (plain : hierarchy.Plain)
include flat plain

theorem moves_run (remaining : Nat) :
    Enter.Moves hierarchy R (Dispatcher.run ⟨hierarchy, options⟩ remaining) := by
  induction remaining with
  | zero => exact fun _ _ _ _ _ _ _ => Action.moves_lift upholds.refl _
  | succ remaining ih =>
      intro receiver exact method owner args ownerFound declared
      obtain ⟨body, isBody⟩ := exists_expr_of_isExpr (plain.isExpr_of_find? ownerFound declared)
      rw [Dispatcher.run_succ_of_expr _ _ _ _ _ _ isBody]
      apply (upholds.moves_announce options receiver exact method _).bind upholds.trans
      intro _ _ _
      apply (upholds.sustains options flat ih receiver method _).eval
      intro node occurs
      apply Hierarchy.contains_of_find? ownerFound declared
      rw [isBody]
      exact occurs

theorem moves_invoke (reference : Reference) (signature : Signature) (args : List Value) :
    (Dispatcher.invoke ⟨hierarchy, options⟩ reference signature args).Moves R := by
  rw [Dispatcher.invoke_eq]
  apply (Action.moves_lift upholds.refl _).bind upholds.trans
  intro _ _ _
  exact upholds.moves_dispatch options flat
    (upholds.moves_run options flat plain options.maxCallDepth) reference.target signature args

end Hierarchy.Upholds

/-! ## Slots -/

/-- The slot is the one that the class resolves for one of the fields. -/
def ClassTable.Targets (classes : ClassTable) (fields : String → Prop) (id : ClassId)
    (slot : Nat) : Prop :=
  ∃ cls field, classes.find? id = some cls ∧ fields field ∧ cls.slotOf? field = some slot

/-- The later store still holds every instance, and the slots that differ are those which
the exact class resolves for one of the fields. -/
structure Store.Touches (classes : ClassTable) (fields : String → Prop) (before after : Store) :
    Prop where
  lasts : before.Lasts after
  targeted : ∀ id inst now, before.find? id = some inst → after.find? id = some now → ∀ slot,
    now.slots[slot]? ≠ inst.slots[slot]? → classes.Targets fields inst.cls slot

namespace Store

variable {classes : ClassTable} {fields : String → Prop} {before after : Store}

theorem touches_refl (store : Store) : store.Touches classes fields store where
  lasts := lasts_refl store
  targeted id inst now live nowLive slot differs := by
    cases live.symm.trans nowLive
    exact absurd rfl differs

theorem Touches.trans {between : Store} (first : before.Touches classes fields between)
    (second : between.Touches classes fields after) : before.Touches classes fields after where
  lasts := first.lasts.trans second.lasts
  targeted id inst now live nowLive slot differs := by
    obtain ⟨mid, midLive, shape⟩ := first.lasts.kept id inst live not_false
    by_cases here : mid.slots[slot]? = inst.slots[slot]?
    · rw [← here] at differs
      rw [← shape.cls]
      exact second.targeted id mid now midLive nowLive slot differs
    · exact first.targeted id inst mid live midLive slot here

theorem touches_write {id : InstanceNo} {field : String} {value : Value}
    (isField : fields field) (run : before.write classes id field value = .ok after) :
    before.Touches classes fields after where
  lasts := evolves_write run
  targeted other inst now live nowLive slot differs := by
    obtain ⟨written, view, place, wasLive, known, placed, rfl⟩ := write_eq_ok run
    obtain ⟨positive, given⟩ := bounds_of_find? wasLive
    rw [find?_put before id other _ positive given] at nowLive
    split at nowLive
    · rename_i isWritten
      subst isWritten
      cases live.symm.trans wasLive
      cases nowLive
      have here : place = slot := by
        by_contra elsewhere
        exact differs (List.getElem?_set_ne elsewhere)
      subst here
      exact ⟨view, field, ClassTable.find?_of_get known, isField,
        ((inst.position_eq_ok_iff view field place).mp placed).2.1⟩
    · cases live.symm.trans nowLive
      exact absurd rfl differs

theorem touches_allocate (store : Store) (cls : Class) (domain : Domain) :
    store.Touches classes fields (store.allocate cls domain) where
  lasts := store.evolves_allocate cls domain
  targeted id inst now live nowLive slot differs := by
    rw [find?_allocate, if_neg (Nat.ne_of_lt (bounds_of_find? live).2), live] at nowLive
    cases nowLive
    exact absurd rfl differs

/-- Where no field may be touched, what has been given out stands for the same instance,
or for none. -/
theorem Touches.find?_eq (touches : before.Touches classes fields after)
    (untouched : ∀ field, ¬ fields field) {id : InstanceNo} (given : id < before.next) :
    after.find? id = before.find? id := by
  cases live : before.find? id with
  | none => exact touches.lasts.ended id given (.inl live)
  | some inst =>
      obtain ⟨now, nowLive, shape⟩ := touches.lasts.kept id inst live not_false
      have sameSlots : now.slots = inst.slots := by
        apply List.ext_getElem?
        intro slot
        by_contra differs
        obtain ⟨_, field, _, isField, _⟩ := touches.targeted id inst now live nowLive slot differs
        exact untouched field isField
      have same : now = inst := by
        obtain ⟨_, _, _⟩ := now
        obtain ⟨rfl, rfl, _⟩ := shape
        subst sameSlots
        rfl
      rw [nowLive, same]

end Store

namespace Hierarchy

/-- The fields that some body sets. -/
def Sets (hierarchy : Hierarchy) (field : String) : Prop := hierarchy.Contains (.set field)

theorem upholds_touches (hierarchy : Hierarchy) :
    hierarchy.Upholds (Store.Touches hierarchy.classes hierarchy.Sets) where
  refl := Store.touches_refl
  trans _ _ _ := Store.Touches.trans
  write occurs _ _ _ _ := Store.touches_write occurs
  allocate _ _ _ store domain := store.touches_allocate _ domain

theorem upholds_eq {hierarchy : Hierarchy} (noSet : ∀ field, ¬ hierarchy.Contains (.set field))
    (noNew : ∀ name mark, ¬ hierarchy.Contains (.new name mark)) :
    hierarchy.Upholds fun before after => after = before where
  refl _ := rfl
  trans _ _ _ first second := second.trans first
  write occurs := absurd occurs (noSet _)
  allocate occurs := absurd occurs (noNew _ _)

end Hierarchy

end Lineage
