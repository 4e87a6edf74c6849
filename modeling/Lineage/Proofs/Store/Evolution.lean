import Lineage.Proofs.Call.Course
import Lineage.Proofs.Store.Typing

/-!
# How stores evolve

While instances are allocated, written and released, a number that has been given out
stands for the same instance, with its class, its domain and its slots, until it is
released, and for nothing from then on (`Evolves`).  Single steps are `evolves_write`,
`evolves_allocate` and `evolves_release`; a call, which releases nothing, is
`evolves_invoke`.  `Course.origin` says where the instances come from.
-/

set_option autoImplicit false

namespace Lineage

namespace Instance

/-- The same class, domain and number of slots. -/
structure SameShape (old now : Instance) : Prop where
  cls : now.cls = old.cls
  domain : now.domain = old.domain
  length : now.slots.length = old.slots.length

theorem SameShape.refl (inst : Instance) : inst.SameShape inst := ⟨rfl, rfl, rfl⟩

theorem SameShape.trans {first second third : Instance} (before : first.SameShape second)
    (after : second.SameShape third) : first.SameShape third :=
  ⟨after.cls.trans before.cls, after.domain.trans before.domain, after.length.trans before.length⟩

theorem sameShape_set (inst : Instance) (slot : Nat) (value : Value) :
    inst.SameShape { inst with slots := inst.slots.set slot value } :=
  ⟨rfl, rfl, List.length_set⟩

end Instance

theorem Fits.sameShape {table : ClassTable} {old now : Instance} {cls : Class}
    (fits : Fits table old cls) (same : old.SameShape now) : Fits table now cls where
  found := by rw [same.cls, fits.found]
  length := by rw [same.length, fits.length]

theorem Fits.grows {before after : ClassTable} {inst : Instance} {cls : Class}
    (fits : Fits before inst cls) (grows : before.Grows after) : Fits after inst cls :=
  ⟨grows.find? _ _ fits.found, fits.length⟩

namespace Store

/-- The later store holds what the earlier one held, but for the instances that are
gone, and has no new meaning for a number that was given out. -/
structure Evolves (gone : InstanceNo → Prop) (before after : Store) : Prop where
  grown : before.next ≤ after.next
  kept : ∀ id inst, before.find? id = some inst → ¬ gone id → ∃ now,
    after.find? id = some now ∧ inst.SameShape now
  ended : ∀ id, id < before.next → before.find? id = none ∨ gone id → after.find? id = none

/-- The later store still holds everything. -/
def Lasts : Store → Store → Prop := Evolves fun _ => False

theorem Evolves.trans {gone gone' : InstanceNo → Prop} {first second third : Store}
    (before : first.Evolves gone second) (after : second.Evolves gone' third) :
    first.Evolves (fun id => gone id ∨ gone' id) third where
  grown := Nat.le_trans before.grown after.grown
  kept id inst live here := by
    obtain ⟨mid, midLive, toMid⟩ := before.kept id inst live fun g => here (.inl g)
    obtain ⟨now, nowLive, fromMid⟩ := after.kept id mid midLive fun g => here (.inr g)
    exact ⟨now, nowLive, toMid.trans fromMid⟩
  ended id given isGone := by
    have midGiven := Nat.lt_of_lt_of_le given before.grown
    rcases isGone with dead | goneFirst | goneThen
    · exact after.ended id midGiven (.inl (before.ended id given (.inl dead)))
    · exact after.ended id midGiven (.inl (before.ended id given (.inr goneFirst)))
    · exact after.ended id midGiven (.inr goneThen)

theorem Evolves.congr {gone gone' : InstanceNo → Prop} {before after : Store}
    (evolves : before.Evolves gone after) (same : ∀ id, gone id ↔ gone' id) :
    before.Evolves gone' after := by
  have sameGone : gone = gone' := funext fun id => propext (same id)
  exact sameGone ▸ evolves

theorem lasts_refl (store : Store) : store.Lasts store where
  grown := Nat.le_refl _
  kept id inst live _ := ⟨inst, live, .refl inst⟩
  ended id _ dead := by simpa using dead

theorem Lasts.trans {first second third : Store} (before : first.Lasts second)
    (after : second.Lasts third) : first.Lasts third :=
  (Evolves.trans before after).congr fun _ => or_self_iff

theorem evolves_write {store changed : Store} {classes : ClassTable} {id : InstanceNo}
    {field : String} {value : Value} (run : store.write classes id field value = .ok changed) :
    store.Lasts changed := by
  obtain ⟨sameNext, inst, slot, live, changes⟩ := find?_of_write run
  refine ⟨Nat.le_of_eq sameNext.symm, ?_, ?_⟩
  · intro other old wasLive _
    rw [changes other]
    split
    · rename_i isWritten
      subst isWritten
      rw [live] at wasLive
      cases wasLive
      exact ⟨_, rfl, inst.sameShape_set slot value⟩
    · exact ⟨old, wasLive, .refl old⟩
  · intro other _ dead
    have wasDead : store.find? other = none := by simpa using dead
    rw [changes other, if_neg, wasDead]
    rintro rfl
    rw [live] at wasDead
    cases wasDead

theorem evolves_allocate (store : Store) (cls : Class) (domain : Domain) :
    store.Lasts (store.allocate cls domain) where
  grown := store.next_le_allocate cls domain
  kept id inst live _ := by
    rw [find?_allocate, if_neg (Nat.ne_of_lt (bounds_of_find? live).2)]
    exact ⟨inst, live, .refl inst⟩
  ended id given dead := by
    rw [find?_allocate, if_neg (Nat.ne_of_lt given)]
    simpa using dead

theorem release_eq_ok_iff (store left : Store) (id : InstanceNo) (inst : Instance) :
    store.release id = .ok (inst, left) ↔
      store.find? id = some inst ∧ left = store.put id none := by
  unfold release
  cases live : store.get id with
  | error failure =>
      have dead : store.find? id ≠ some inst := fun held => by
        rw [(store.get_eq_ok_iff id inst).mpr held] at live
        cases live
      simp [bind, Except.bind, dead]
  | ok held =>
      rw [(store.get_eq_ok_iff id held).mp live]
      simp only [bind, Except.bind, pure, Except.pure, Except.ok.injEq, Prod.mk.injEq,
        Option.some.injEq]
      exact and_congr_right fun _ => eq_comm

theorem evolves_release {store left : Store} {id : InstanceNo} {inst : Instance}
    (run : store.release id = .ok (inst, left)) : store.Evolves (· = id) left := by
  obtain ⟨live, rfl⟩ := (store.release_eq_ok_iff left id inst).mp run
  obtain ⟨positive, given⟩ := bounds_of_find? live
  refine ⟨Nat.le_of_eq (store.next_put id none).symm, ?_, ?_⟩
  · intro other old wasLive isOther
    rw [find?_put store id other none positive given, if_neg isOther]
    exact ⟨old, wasLive, .refl old⟩
  · intro other _ ended
    rw [find?_put store id other none positive given]
    split
    · rfl
    · rename_i isOther
      exact ended.resolve_right isOther

/-- A release that is refused takes nothing, for the number stands for nothing. -/
theorem evolves_released (store : Store) (id : InstanceNo) :
    store.Evolves (· = id) (Action.release id store).store := by
  unfold Action.release
  cases run : store.release id with
  | ok released => exact evolves_release run
  | error failure =>
      refine ⟨Nat.le_refl _, fun other inst live _ => ⟨inst, live, .refl inst⟩, ?_⟩
      rintro other _ (dead | rfl)
      · exact dead
      · cases live : store.find? other with
        | none => rfl
        | some inst =>
            rw [(store.release_eq_ok_iff _ other inst).mpr ⟨live, rfl⟩] at run
            cases run

/-- A release puts nothing in place of what it takes. -/
theorem find?_of_released {store : Store} {id other : InstanceNo} {inst : Instance}
    (live : (Action.release id store).store.find? other = some inst) :
    store.find? other = some inst := by
  unfold Action.release at live
  cases run : store.release id with
  | error failure =>
      rw [run] at live
      exact live
  | ok released =>
      obtain ⟨taken, left⟩ := released
      rw [run] at live
      obtain ⟨wasLive, rfl⟩ := (store.release_eq_ok_iff left id taken).mp run
      obtain ⟨positive, given⟩ := bounds_of_find? wasLive
      rw [find?_put store id other none positive given] at live
      split at live
      · cases live
      · exact live

/-- What lives later and was given out before lived before. -/
theorem Evolves.exists_before {gone : InstanceNo → Prop} {before after : Store}
    (evolves : before.Evolves gone after) {id : InstanceNo} (given : id < before.next)
    {inst : Instance} (live : after.find? id = some inst) :
    ∃ old, before.find? id = some old ∧ old.SameShape inst := by
  have alive : ¬ (before.find? id = none ∨ gone id) := by
    intro ended
    rw [evolves.ended id given ended] at live
    cases live
  obtain ⟨notDead, here⟩ := not_or.mp alive
  obtain ⟨old, wasLive⟩ := Option.ne_none_iff_exists'.mp notDead
  obtain ⟨now, isLive, same⟩ := evolves.kept id old wasLive here
  rw [live] at isLive
  cases isLive
  exact ⟨old, wasLive, same⟩

theorem steady_lasts (classes : ClassTable) : Steady Lasts classes where
  refl := lasts_refl
  trans := Lasts.trans
  write := evolves_write
  allocate store _ cls domain _ := store.evolves_allocate cls domain

/-- What lives at the end of a course lived at its start, or its allocation was reported
on the way and it fits its class. -/
theorem Course.origin {classes : ClassTable} {decls : List ClassDecl}
    (holds : classes.Holds decls) {start reached : Store} {events : List Event}
    (course : start.Course classes events reached) {id : InstanceNo} {inst : Instance}
    (live : reached.find? id = some inst) :
    (∃ old, start.find? id = some old ∧ old.SameShape inst) ∨
      start.find? id = none ∧ ∃ cls, Fits classes inst cls ∧
        .allocated id cls.name inst.domain ∈ events := by
  induction course generalizing inst with
  | stay => exact .inl ⟨inst, live, .refl inst⟩
  | write before run ih =>
      obtain ⟨_, old, slot, wasLive, changes⟩ := find?_of_write run
      rw [changes id] at live
      split at live
      · rename_i isWritten
        subst isWritten
        cases live
        rcases ih wasLive with ⟨first, atStart, same⟩ | ⟨notAtStart, cls, fits, reported⟩
        · exact .inl ⟨first, atStart, same.trans (old.sameShape_set slot _)⟩
        · exact .inr ⟨notAtStart, cls, fits.set slot _, reported⟩
      · exact ih live
  | @allocate events reached name cls before known domain ih =>
      rw [find?_allocate] at live
      split at live
      · rename_i isNew
        subst isNew
        cases live
        have grown := ((steady_lasts classes).of_course before).grown
        refine .inr ⟨start.find?_eq_none_of_next_le _ grown, cls, ?_, ?_⟩
        · exact fits_ofClass (holds.find?_of_lookup known) domain
        · exact List.mem_append_right _ (List.mem_singleton_self _)
      · rcases ih live with atStart | ⟨notAtStart, owner, fits, reported⟩
        · exact .inl atStart
        · exact .inr ⟨notAtStart, owner, fits, List.mem_append_left _ reported⟩
  | report _ _ _ _ _ _ _ ih =>
      rcases ih live with atStart | ⟨notAtStart, owner, fits, reported⟩
      · exact .inl atStart
      · exact .inr ⟨notAtStart, owner, fits, List.mem_append_left _ reported⟩

/-- What is reported as allocated is new, and lives at the end in the same domain. -/
theorem Course.live_of_allocated {classes : ClassTable} {start reached : Store}
    {events : List Event} (course : start.Course classes events reached) {id : InstanceNo}
    {name : String} {domain : Domain} (reported : .allocated id name domain ∈ events) :
    start.next ≤ id ∧ ∃ inst, reached.find? id = some inst ∧ inst.domain = domain := by
  induction course with
  | stay => cases reported
  | write before run ih =>
      obtain ⟨isNew, inst, live, sameDomain⟩ := ih reported
      obtain ⟨now, nowLive, same⟩ := (evolves_write run).kept id inst live not_false
      exact ⟨isNew, now, nowLive, same.domain.trans sameDomain⟩
  | @allocate events reached _ cls before _ given ih =>
      rcases List.mem_append.mp reported with isEarly | isLast
      · obtain ⟨isNew, inst, live, sameDomain⟩ := ih isEarly
        obtain ⟨now, nowLive, same⟩ :=
          (reached.evolves_allocate cls given).kept id inst live not_false
        exact ⟨isNew, now, nowLive, same.domain.trans sameDomain⟩
      · cases List.mem_singleton.mp isLast
        refine ⟨((steady_lasts classes).of_course before).grown, .ofClass cls domain, ?_, rfl⟩
        rw [find?_allocate, if_pos rfl]
  | report before _ _ _ _ _ _ ih =>
      rcases List.mem_append.mp reported with isEarly | isLast
      · exact ih isEarly
      · cases List.mem_singleton.mp isLast

end Store

/-- No call ends the life of an instance or changes what a number stands for. -/
theorem Dispatcher.evolves_invoke {dispatcher : Dispatcher} {decls : List ClassDecl}
    (flat : dispatcher.hierarchy.Flat decls) (reference : Reference) (signature : Signature)
    (args : List Value) (store : Store) :
    store.Lasts (dispatcher.invoke reference signature args store).store :=
  (Store.steady_lasts _).of_course (through_invoke flat reference signature args store)

end Lineage
