import Lineage.Proofs.Call.Unbroken
import Lineage.Proofs.Session.Failures
import Lineage.Proofs.Session.Typing

/-!
# No breach in a session

Whatever a host hands from one part of a session to another, no command comes to a breach,
and no query but the four unchecked ones (`Query.isChecked`), which are broken by an identity
of another table and by nothing else (`checked_never_breaches`).
-/

set_option autoImplicit false

namespace Lineage

/-- The reply is an answer, or a refusal for another reason than a breach. -/
abbrev Reply.Unbroken {α : Type} (reply : Reply α) : Prop := reply.Spares (· = .breach)

theorem unbroken_reply_iff {α : Type} (reply : Reply α) :
    reply.Unbroken ↔ reply ≠ .error (.failed .breach) := by
  constructor
  · intro spares broken
    exact spares .breach broken rfl
  · rintro differs failure same rfl
    exact differs same

namespace Session

/-- No instance has to be there. -/
theorem serves_any (session : Session) (handle : Handle) (id : InstanceNo) :
    session.Serves (· = .breach) handle id :=
  fun store _ => sparesMissing_breach.serves store id

theorem Sound.unbroken_perform {session : Session} (sound : session.Sound) (command : Command) :
    (session.perform command).reply.Unbroken := by
  cases isDefinition : command.defines with
  | true =>
      cases command with
      | build decls => exact session.spares_build onlyOdd_breach.sparesDefinitions decls
      | define table decl => exact sound.spares_define onlyOdd_breach.sparesDefinitions table decl
      | _ => cases isDefinition
  | false =>
      apply sound.spares_perform onlyOdd_breach.sparesUse sparesMissing_breach command isDefinition
      intro dispatcher reference signature args store calls
      obtain ⟨decls, flat⟩ := sound.exists_flat_of_calls calls
      exact Dispatcher.unbroken_invoke flat dispatcher.options reference signature args store

/-! ## What breaks an unchecked query -/

/-- The class can be found. -/
def Knows (session : Session) (ref : ClassRef) : Prop := ∃ cls, session.findClass ref = .ok cls

section Unchecked
variable {session : Session} {α β : Type}

/-- Only what comes last is broken. -/
theorem broken_bind_iff {reply : Reply α} (first : reply.Unbroken) (next : α → Reply β) :
    (reply >>= next) = .error (.failed .breach) ↔
      ∃ value, reply = .ok value ∧ next value = .error (.failed .breach) := by
  cases reply with
  | ok value =>
      constructor
      · intro broken
        exact ⟨value, rfl, broken⟩
      · intro ⟨_, same, broken⟩
        cases same
        exact broken
  | error refusal =>
      constructor
      · intro broken
        exact absurd rfl (first.error .breach broken)
      · intro ⟨_, same, _⟩
        cases same

theorem broken_answer_iff (outcome : Outcome α) (answer : α → β) :
    (do return answer (← Reply.ofOutcome outcome) : Reply β) = .error (.failed .breach) ↔
      outcome = .error .breach := by
  cases outcome <;> simp [Reply.ofOutcome, bind, Except.bind, pure, Except.pure]

theorem broken_classAt_iff (classes : ClassTable) (id : ClassId) :
    classes.classAt id = .error .breach ↔ classes.find? id = none := by
  unfold ClassTable.classAt
  cases classes.find? id <;> simp

theorem broken_ancestors_iff {classes : ClassTable} {decls : List ClassDecl}
    (holds : classes.Holds decls) (id : ClassId) :
    classes.ancestors id = .error .breach ↔ classes.find? id = none := by
  cases found : classes.find? id with
  | none =>
      have missing := (broken_classAt_iff classes id).mpr found
      unfold ClassTable.ancestors
      cases classes.size with
      | zero => simp [ClassTable.climb]
      | succ steps => simp [ClassTable.climb, missing, bind, Except.bind]
  | some cls =>
      obtain ⟨chain, chained⟩ := holds.exists_chain found
      simp [chained.ancestors_eq holds found]

theorem broken_isSubclassOf_iff {classes : ClassTable} {decls : List ClassDecl}
    (holds : classes.Holds decls) (id ancestor : ClassId) :
    classes.isSubclassOf id ancestor = .error .breach ↔
      classes.find? id = none ∨ classes.find? ancestor = none := by
  cases upperFound : classes.find? ancestor with
  | none =>
      have missing := (broken_classAt_iff classes ancestor).mpr upperFound
      simp [ClassTable.isSubclassOf, missing, bind, Except.bind]
  | some upper =>
      cases found : classes.find? id with
      | none =>
          have missing := (broken_classAt_iff classes id).mpr found
          simp [ClassTable.isSubclassOf, ClassTable.classAt_of_find? upperFound, missing, bind,
            Except.bind]
      | some cls =>
          have unbroken : Unbroken (classes.isSubclassOf id ancestor) :=
            spares_isSubclassOf holds found upperFound
          simpa using (unbroken_iff _).mp unbroken

theorem broken_dispatchTable_iff {hierarchy : Hierarchy} {decls : List ClassDecl}
    (flat : hierarchy.Flat decls) (id : ClassId) :
    hierarchy.dispatchTable id = .error .breach ↔ hierarchy.classes.find? id = none := by
  cases found : hierarchy.classes.find? id with
  | none =>
      have missing := (broken_classAt_iff hierarchy.classes id).mpr found
      simp [Hierarchy.dispatchTable, missing, bind, Except.bind]
  | some cls =>
      obtain ⟨chain, chained⟩ := flat.holds.exists_chain found
      obtain ⟨table, _, known, _⟩ := flat.exists_table found chained
      simp [known]

variable (sound : session.Sound) (tagged : session.Tagged)
include sound tagged

/-- A class that was found in one table is unknown to every other. -/
theorem Sound.find?_eq_none_iff {ref : ClassRef} {cls : Class} {table : Handle}
    {classes : ClassTable} (found : session.findClass ref = .ok cls)
    (isTable : session.classes table = .ok classes) :
    classes.find? cls.id = none ↔ ref.table ≠ table := by
  obtain ⟨own, isOwn, known⟩ := classes_of_findClass found
  obtain ⟨decls, holds⟩ := sound.exists_holds isOwn
  have ownFound := holds.find?_of_lookup known
  have ownTable : cls.id.table = ref.table := by
    rw [((own.find?_eq_some_iff _ _).mp ownFound).1, tagged.tag_eq isOwn]
  constructor
  · intro missing same
    rw [same, isTable] at isOwn
    rw [Except.ok.inj isOwn, ownFound] at missing
    cases missing
  · intro differs
    unfold ClassTable.find?
    rw [if_neg]
    rw [ownTable, tagged.tag_eq isTable]
    exact differs

/-- A question about one class that only a class of no such table breaks. -/
theorem Sound.broken_question_iff {table : Handle} {ref : ClassRef} {γ : Type} {things : Reply γ}
    (unbroken : things.Unbroken) {classesOf : γ → ClassTable}
    (isTable : ∀ thing, things = .ok thing → session.classes table = .ok (classesOf thing))
    {question : γ → ClassId → Outcome α}
    (broken : ∀ thing id, things = .ok thing →
      (question thing id = .error .breach ↔ (classesOf thing).find? id = none))
    (answer : α → β) :
    (do
      let found ← session.findClass ref
      let thing ← things
      return answer (← Reply.ofOutcome (question thing found.id))) = .error (.failed .breach) ↔
      session.Knows ref ∧ (∃ thing, things = .ok thing) ∧ ref.table ≠ table := by
  rw [broken_bind_iff (sound.spares_findClass sparesTables_breach ref)]
  constructor
  · intro ⟨cls, found, rest⟩
    obtain ⟨thing, there, last⟩ := (broken_bind_iff unbroken _).mp rest
    have missing := (broken thing cls.id there).mp ((broken_answer_iff _ answer).mp last)
    exact ⟨⟨cls, found⟩, ⟨thing, there⟩,
      (sound.find?_eq_none_iff tagged found (isTable thing there)).mp missing⟩
  · intro ⟨⟨cls, found⟩, ⟨thing, there⟩, differs⟩
    have missing := (sound.find?_eq_none_iff tagged found (isTable thing there)).mpr differs
    refine ⟨cls, found, (broken_bind_iff unbroken _).mpr ⟨thing, there, ?_⟩⟩
    exact (broken_answer_iff _ answer).mpr ((broken thing cls.id there).mpr missing)

theorem Sound.broken_isSubclassOf_query_iff (table : Handle) (cls ancestor : ClassRef) :
    session.ask (.isSubclassOf table cls ancestor) = .error (.failed .breach) ↔
      session.Knows cls ∧ session.Knows ancestor ∧
        (∃ classes, session.classes table = .ok classes) ∧
        (cls.table ≠ table ∨ ancestor.table ≠ table) := by
  unfold ask
  rw [broken_bind_iff (sound.spares_findClass sparesTables_breach cls)]
  constructor
  · intro ⟨lower, found, rest⟩
    obtain ⟨upper, upperFound, rest⟩ :=
      (broken_bind_iff (sound.spares_findClass sparesTables_breach ancestor) _).mp rest
    obtain ⟨classes, isTable, last⟩ := (broken_bind_iff (session.spares_classes table) _).mp rest
    obtain ⟨decls, holds⟩ := sound.exists_holds isTable
    refine ⟨⟨lower, found⟩, ⟨upper, upperFound⟩, ⟨classes, isTable⟩, ?_⟩
    rw [← sound.find?_eq_none_iff tagged found isTable,
      ← sound.find?_eq_none_iff tagged upperFound isTable]
    exact (broken_isSubclassOf_iff holds _ _).mp ((broken_answer_iff _ _).mp last)
  · intro ⟨⟨lower, found⟩, ⟨upper, upperFound⟩, ⟨classes, isTable⟩, differs⟩
    obtain ⟨decls, holds⟩ := sound.exists_holds isTable
    rw [← sound.find?_eq_none_iff tagged found isTable,
      ← sound.find?_eq_none_iff tagged upperFound isTable] at differs
    have spares := sound.spares_findClass sparesTables_breach ancestor
    refine ⟨lower, found, (broken_bind_iff spares _).mpr
      ⟨upper, upperFound, (broken_bind_iff (session.spares_classes table) _).mpr
        ⟨classes, isTable, ?_⟩⟩⟩
    exact (broken_answer_iff _ _).mpr ((broken_isSubclassOf_iff holds _ _).mpr differs)

end Unchecked

/-- Whatever a host hands from one part of a session to another, no command comes to a breach,
and no query but the unchecked ones.  These are broken exactly by a class of another table.
The two look-ups that come without a check of their own stay within bounds: a definition walks
up from a parent that its table holds, and the position of a field is within its instance. -/
theorem checked_never_breaches (commands : List Command) :
    let session := empty.after commands
    (∀ command, (session.perform command).reply ≠ .error (.failed .breach)) ∧
    (∀ query, query.isChecked = true → session.ask query ≠ .error (.failed .breach)) ∧
    (∀ table cls, session.ask (.ownClassName table cls) = .error (.failed .breach) ↔
      session.Knows cls ∧ (∃ classes, session.classes table = .ok classes) ∧
        cls.table ≠ table) ∧
    (∀ table cls, session.ask (.ancestors table cls) = .error (.failed .breach) ↔
      session.Knows cls ∧ (∃ classes, session.classes table = .ok classes) ∧
        cls.table ≠ table) ∧
    (∀ table cls ancestor, session.ask (.isSubclassOf table cls ancestor) =
        .error (.failed .breach) ↔
      session.Knows cls ∧ session.Knows ancestor ∧
        (∃ classes, session.classes table = .ok classes) ∧
        (cls.table ≠ table ∨ ancestor.table ≠ table)) ∧
    (∀ table cls, session.ask (.dispatchTable table cls) = .error (.failed .breach) ↔
      session.Knows cls ∧ (∃ hierarchy, session.hierarchy table = .ok hierarchy) ∧
        cls.table ≠ table) ∧
    (∀ table classes decl upper, session.classes table = .ok classes →
      classes.parentOf decl = .ok (some upper) →
        ∃ chain, classes.ancestors upper.id = .ok chain) ∧
    (∀ (inst : Instance) view field slot, inst.position view field = .ok slot →
      slot < inst.slots.length) := by
  intro session
  have sound : session.Sound := (sound_empty.evolves_after commands).sound
  have tagged : session.Tagged := tagged_after commands
  refine ⟨?_, ?_, ?_, ?_, ?_, ?_, ?_, ?_⟩
  · intro command
    rw [← unbroken_reply_iff]
    exact sound.unbroken_perform command
  · intro query isChecked
    rw [← unbroken_reply_iff]
    apply sound.spares_ask onlyOdd_breach query (.inl isChecked)
    intro handle id _
    exact session.serves_any handle id
  · intro table cls
    apply sound.broken_question_iff tagged (session.spares_classes table) fun _ there => there
    intro classes id isTable
    exact broken_classAt_iff classes id
  · intro table cls
    apply sound.broken_question_iff tagged (session.spares_classes table) fun _ there => there
    intro classes id isTable
    obtain ⟨decls, holds⟩ := sound.exists_holds isTable
    exact broken_ancestors_iff holds id
  · exact sound.broken_isSubclassOf_query_iff tagged
  · intro table cls
    apply sound.broken_question_iff tagged (session.spares_hierarchy table)
    · intro hierarchy isClosed
      have isState := (session.hierarchy_eq_ok_iff table hierarchy).mp isClosed
      exact (session.classes_eq_ok_iff _ _).mpr ⟨_, isState, rfl⟩
    · intro hierarchy id isClosed
      obtain ⟨decls, flat⟩ := sound.exists_flat isClosed
      exact broken_dispatchTable_iff flat id
  · intro table classes decl upper isTable run
    obtain ⟨decls, holds⟩ := sound.exists_holds isTable
    have found := (holds.parentOf_eq_ok run).2 upper rfl
    obtain ⟨chain, chained⟩ := holds.exists_chain found
    exact ⟨chain, chained.ancestors_eq holds found⟩
  · intro inst view field slot run
    exact ((inst.position_eq_ok_iff view field slot).mp run).2.2

end Session

end Lineage
