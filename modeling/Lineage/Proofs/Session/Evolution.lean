import Lineage.Proofs.Session.Change
import Lineage.Proofs.Store.Evolution

/-!
# How sessions evolve

Whatever a host does, a handle of a session keeps its meaning: a table that has been
closed, a dispatcher and a reference stay what they are, a table that is open only grows,
and a store evolves as stores do, where what is gone are the instances that the host
releases from it (`Evolves`).  `evolves_perform` says so for one command and
`evolves_after` for any number of them.
-/

set_option autoImplicit false

namespace Lineage

namespace Session

/-- What is held stays held, but for the instances that are gone from their stores. -/
structure Evolves (gone : Handle → InstanceNo → Prop) (before after : Session) : Prop where
  sound : after.Sound
  tables : ∀ handle hierarchy, held before.tables handle = .ok (.closed hierarchy) →
    held after.tables handle = .ok (.closed hierarchy)
  classes : ∀ handle classes, before.classes handle = .ok classes → ∃ now,
    after.classes handle = .ok now ∧ classes.Grows now
  dispatchers : ∀ handle attachment, held before.dispatchers handle = .ok attachment →
    held after.dispatchers handle = .ok attachment
  references : ∀ handle reference, held before.references handle = .ok reference →
    held after.references handle = .ok reference
  stores : ∀ handle store, held before.stores handle = .ok store → ∃ now,
    held after.stores handle = .ok now ∧ store.Evolves (gone handle) now

/-- Nothing is gone. -/
def Lasts : Session → Session → Prop := Evolves fun _ _ => False

variable {gone gone' : Handle → InstanceNo → Prop} {first second third : Session}

theorem Evolves.trans (before : first.Evolves gone second) (after : second.Evolves gone' third) :
    first.Evolves (fun handle id => gone handle id ∨ gone' handle id) third where
  sound := after.sound
  tables handle hierarchy there := after.tables _ _ (before.tables _ _ there)
  classes handle classes there := by
    obtain ⟨mid, midThere, toMid⟩ := before.classes handle classes there
    obtain ⟨now, nowThere, fromMid⟩ := after.classes handle mid midThere
    exact ⟨now, nowThere, toMid.trans fromMid⟩
  dispatchers handle attachment there := after.dispatchers _ _ (before.dispatchers _ _ there)
  references handle reference there := after.references _ _ (before.references _ _ there)
  stores handle store there := by
    obtain ⟨mid, midThere, toMid⟩ := before.stores handle store there
    obtain ⟨now, nowThere, fromMid⟩ := after.stores handle mid midThere
    exact ⟨now, nowThere, toMid.trans fromMid⟩

theorem Evolves.congr (evolves : first.Evolves gone second)
    (same : ∀ handle id, gone handle id ↔ gone' handle id) : first.Evolves gone' second := by
  have sameGone : gone = gone' := funext fun handle => funext fun id => propext (same handle id)
  exact sameGone ▸ evolves

theorem Lasts.evolves (lasts : first.Lasts second) (nothing : ∀ handle id, ¬ gone handle id) :
    first.Evolves gone second :=
  Evolves.congr lasts fun handle id => iff_of_false False.elim (nothing handle id)

/-- What only adds to a session changes nothing of how it evolved. -/
theorem Evolves.keeps (evolves : first.Evolves gone second) (rest : second.Keeps third) :
    first.Evolves gone third where
  sound handle state there := evolves.sound handle state (rest.tables ▸ there)
  tables handle hierarchy there := rest.tables ▸ evolves.tables handle hierarchy there
  classes handle classes there := by
    obtain ⟨now, nowThere, grows⟩ := evolves.classes handle classes there
    refine ⟨now, ?_, grows⟩
    rw [classes_eq_ok_iff, rest.tables, ← classes_eq_ok_iff]
    exact nowThere
  dispatchers handle attachment there :=
    rest.dispatchers _ _ (evolves.dispatchers handle attachment there)
  references handle reference there :=
    rest.references _ _ (evolves.references handle reference there)
  stores handle store there := rest.stores ▸ evolves.stores handle store there

theorem Sound.lasts_refl {session : Session} (sound : session.Sound) : session.Lasts session where
  sound := sound
  tables _ _ there := there
  classes _ classes there := ⟨classes, there, .refl classes⟩
  dispatchers _ _ there := there
  references _ _ there := there
  stores _ store there := ⟨store, there, store.lasts_refl⟩

/-! ## Single changes -/

section Changes
variable {session : Session} (sound : session.Sound)
include sound

theorem Sound.lasts_push_table {state : TableState} (pushed : state.Sound) :
    session.Lasts { session with tables := session.tables.push state } :=
  { sound.lasts_refl with
    sound := sound.push pushed
    tables := fun _ _ there => held_push there state
    classes := by
      intro handle classes there
      obtain ⟨old, isOld, same⟩ := (session.classes_eq_ok_iff _ _).mp there
      exact ⟨classes, (classes_eq_ok_iff _ _ _).mpr ⟨old, held_push isOld state, same⟩,
        .refl classes⟩ }

/-- A table that is open may go on as one that has grown. -/
theorem Sound.lasts_rebind_table {table : Handle} {classes changed : ClassTable}
    (isOpen : held session.tables table = .ok (.opened classes)) (grows : classes.Grows changed)
    {state : TableState} (rebound : state.Sound) (isChanged : state.classes? = some changed) :
    session.Lasts { session with tables := rebind session.tables table state } :=
  { sound.lasts_refl with
    sound := by
      intro handle other there
      rw [held_rebind isOpen] at there
      split at there
      · exact Except.ok.inj there ▸ rebound
      · exact sound handle other there
    tables := by
      intro handle hierarchy there
      rw [held_rebind isOpen, if_neg, there]
      rintro rfl
      rw [isOpen] at there
      cases there
    classes := by
      intro handle known there
      obtain ⟨old, isOld, isKnown⟩ := (session.classes_eq_ok_iff _ _).mp there
      by_cases here : handle = table
      · subst here
        rw [isOpen] at isOld
        cases isOld
        cases isKnown
        refine ⟨changed, (classes_eq_ok_iff _ _ _).mpr ⟨state, ?_, isChanged⟩, grows⟩
        exact (held_rebind isOpen _ state).trans (if_pos rfl)
      · refine ⟨known, (classes_eq_ok_iff _ _ _).mpr ⟨old, ?_, isKnown⟩, .refl known⟩
        exact (held_rebind isOpen _ state).trans ((if_neg here).trans isOld) }

theorem Sound.lasts_push_store (store : Store) :
    session.Lasts { session with stores := session.stores.push store } :=
  { sound.lasts_refl with
    stores := fun _ old there => ⟨old, held_push there store, old.lasts_refl⟩ }

theorem Sound.evolves_rebind_store {store : Handle} {instances changed : Store}
    (isStore : held session.stores store = .ok instances) {gone : InstanceNo → Prop}
    (evolves : instances.Evolves gone changed) :
    session.Evolves (fun handle id => handle = store ∧ gone id)
      { session with stores := rebind session.stores store changed } :=
  { sound.lasts_refl with
    stores := by
      intro handle old there
      rw [held_rebind isStore]
      split
      · rename_i here
        subst here
        rw [isStore] at there
        cases there
        exact ⟨changed, rfl, evolves.congr fun id => (and_iff_right rfl).symm⟩
      · rename_i elsewhere
        exact ⟨old, there, Store.Evolves.congr old.lasts_refl fun id =>
          iff_of_false False.elim fun isGone => elsewhere isGone.1⟩ }

end Changes

end Session

/-! ## Commands -/

/-- The command is to release the instance from the store. -/
def Command.Releases (command : Command) (store : Handle) (id : InstanceNo) : Prop :=
  ∃ keep, command = .release store id keep

theorem Command.releases_iff {store other : Handle} {id released : InstanceNo} {keep : Bool} :
    (Command.release store id keep).Releases other released ↔ other = store ∧ released = id := by
  constructor
  · rintro ⟨_, same⟩
    cases same
    exact ⟨rfl, rfl⟩
  · rintro ⟨rfl, rfl⟩
    exact ⟨keep, rfl⟩

namespace Session

section Commands
variable {session : Session} (sound : session.Sound) {command : Command}
include sound

theorem Sound.lasts_progress {home : Option Handle} {after : Session} {events : List Event}
    (progress : session.Progress home after events) : session.Lasts after := by
  cases progress with
  | other rest => exact sound.lasts_refl.keeps rest
  | opens => exact sound.lasts_push_table ⟨[], ClassTable.holds_empty _⟩
  | loads run events => exact sound.lasts_push_table ⟨_, Hierarchy.flat_of_build run⟩
  | fails events => exact sound.lasts_push_table trivial
  | defines isOpen run =>
      obtain ⟨decls, holds⟩ := sound _ _ isOpen
      exact sound.lasts_rebind_table isOpen (ClassTable.grows_define run)
        ⟨_, ClassTable.holds_define holds run⟩ rfl
  | closes isOpen run =>
      obtain ⟨decls, holds⟩ := sound _ _ isOpen
      obtain ⟨rfl, flat⟩ := Hierarchy.flat_of_ofTable holds run
      exact sound.lasts_rebind_table isOpen (.refl _) ⟨decls, flat⟩ rfl
  | opensStore => exact sound.lasts_push_store .empty
  | acts isTable isStore course rest =>
      have lasts := (Store.steady_lasts _).of_course course
      refine ((sound.evolves_rebind_store isStore lasts).congr fun _ _ => ?_).keeps rest
      exact ⟨And.right, False.elim⟩

theorem Sound.evolves_change {after : Session} {events : List Event}
    (change : session.Change command after events) :
    session.Evolves command.Releases after := by
  cases change with
  | goesOn noRelease progress =>
      exact (sound.lasts_progress progress).evolves
        fun store id ⟨keep, isRelease⟩ => noRelease store id keep isRelease
  | @releases store id instances _ isRelease isStore rest =>
      obtain ⟨keep, rfl⟩ := isRelease
      -- A refused release counts as well: then the number stands for nothing already.
      have released := instances.evolves_released id
      refine ((sound.evolves_rebind_store isStore released).congr fun handle other => ?_).keeps rest
      exact Command.releases_iff.symm
  | misses isRelease noStore =>
      obtain ⟨keep, rfl⟩ := isRelease
      refine { sound.lasts_refl with stores := fun handle old there => ⟨old, there, ?_⟩ }
      refine Store.Evolves.congr old.lasts_refl fun other => iff_of_false False.elim ?_
      intro isGone
      rw [(Command.releases_iff.mp isGone).1] at there
      exact noStore old there

/-- One command: a release takes its instance, and no other command takes any. -/
theorem Sound.evolves_perform (command : Command) :
    session.Evolves command.Releases (session.perform command).session :=
  sound.evolves_change (sound.change_perform command)

end Commands

/-- Any commands: what is gone are the instances that one of them releases. -/
theorem Sound.evolves_after {session : Session} (sound : session.Sound)
    (commands : List Command) :
    session.Evolves (fun store id => ∃ command ∈ commands, command.Releases store id)
      (session.after commands) := by
  induction commands generalizing session with
  | nil => exact Lasts.evolves sound.lasts_refl fun store id => by simp
  | cons command rest ih =>
      have first := sound.evolves_perform command
      exact (first.trans (ih first.sound)).congr fun store id => by simp

end Session

end Lineage
