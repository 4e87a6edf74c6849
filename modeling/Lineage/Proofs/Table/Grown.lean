import Mathlib.Data.List.Nodup
import Mathlib.Tactic.ByContra
import Lineage.Class.Table

/-!
# Tables grown by definitions

`Holds` is the invariant of class tables: a table holds exactly the definitions
that it accepted, each as the class made from it at its position, below a parent
that stands at an earlier position, and names lead to those classes and to
nothing else.  `holds_define` is the step, `holds_attemptAll` and
`holds_of_defineAll` are the runs: every sequence of definitions, refused ones
among them, leads to a table that holds those that were accepted.  What an identity
stands for is never changed by a later definition (`grows_attemptAll`).
-/

set_option autoImplicit false

namespace Lineage

theorem firstRepeated_eq_none_iff {α : Type} [DecidableEq α] (seen values : List α) :
    firstRepeated seen values = none ↔ values.Nodup ∧ ∀ value ∈ values, value ∉ seen := by
  induction values generalizing seen with
  | nil => simp [firstRepeated]
  | cons value rest ih =>
      by_cases member : value ∈ seen
      · simp [firstRepeated, member]
      · rw [firstRepeated, if_neg member, ih]
        constructor
        · rintro ⟨distinct, fresh⟩
          have absent : value ∉ rest := fun inRest => fresh value inRest (by simp)
          refine ⟨List.nodup_cons.mpr ⟨absent, distinct⟩, ?_⟩
          intro other inList
          rcases List.mem_cons.mp inList with rfl | inRest
          · exact member
          · exact fun inSeen => fresh other inRest (List.mem_cons_of_mem value inSeen)
        · rintro ⟨distinct, fresh⟩
          obtain ⟨absent, distinctRest⟩ := List.nodup_cons.mp distinct
          refine ⟨distinctRest, ?_⟩
          intro other inRest inSeen
          rcases List.mem_cons.mp inSeen with rfl | inSeen
          · exact absent inRest
          · exact fresh other (List.mem_cons_of_mem value inRest) inSeen

/-- No field name and no signature is declared twice. -/
structure ClassDecl.Distinct (decl : ClassDecl) : Prop where
  fields : (decl.fields.map (·.name)).Nodup
  methods : (decl.methods.map (·.signature)).Nodup

theorem exists_firstRepeated {α : Type} [DecidableEq α] {values : List α}
    (repeats : ¬ values.Nodup) : ∃ value, firstRepeated [] values = some value := by
  cases repeated : firstRepeated [] values with
  | none => exact absurd ((firstRepeated_eq_none_iff [] values).mp repeated).1 repeats
  | some value => exact ⟨value, rfl⟩

theorem firstRepeated_of_nodup {α : Type} [DecidableEq α] {values : List α}
    (distinct : values.Nodup) : firstRepeated [] values = none :=
  (firstRepeated_eq_none_iff [] values).mpr ⟨distinct, by simp⟩

theorem ClassDecl.checkMembers_eq_ok_iff (decl : ClassDecl) :
    decl.checkMembers = .ok () ↔ decl.Distinct := by
  constructor
  · intro checked
    unfold checkMembers at checked
    refine ⟨?_, ?_⟩
    · by_contra repeats
      obtain ⟨field, repeated⟩ := exists_firstRepeated repeats
      rw [repeated] at checked
      cases checked
    · by_contra repeats
      obtain ⟨signature, repeated⟩ := exists_firstRepeated repeats
      rw [repeated] at checked
      split at checked <;> cases checked
  · intro distinct
    simp only [checkMembers, firstRepeated_of_nodup distinct.fields,
      firstRepeated_of_nodup distinct.methods]

namespace ClassTable

/-- One definition that is tried: a refused one leaves the table as it was. -/
def attempt (table : ClassTable) (decl : ClassDecl) : ClassTable :=
  match table.define decl with
  | .ok (extended, _) => extended
  | .error _ => table

def attemptAll (table : ClassTable) (decls : List ClassDecl) : ClassTable :=
  decls.foldl attempt table

theorem find?_eq_some_iff (table : ClassTable) (id : ClassId) (cls : Class) :
    table.find? id = some cls ↔ id.table = table.tag ∧ table.classes[id.index]? = some cls := by
  unfold find?
  split <;> simp_all

theorem classAt_eq_ok_iff (table : ClassTable) (id : ClassId) (cls : Class) :
    table.classAt id = .ok cls ↔ table.find? id = some cls := by
  unfold classAt
  split <;> simp_all

theorem classAt_of_find? {table : ClassTable} {id : ClassId} {cls : Class}
    (found : table.find? id = some cls) : table.classAt id = .ok cls :=
  (table.classAt_eq_ok_iff id cls).mpr found

theorem get_of_find? {table : ClassTable} {id : ClassId} {cls : Class}
    (found : table.find? id = some cls) : table.get id = .ok cls := by
  simp [get, found]

theorem find?_of_get {table : ClassTable} {id : ClassId} {cls : Class}
    (run : table.get id = .ok cls) : table.find? id = some cls := by
  unfold get at run
  split at run
  · rename_i found
    rw [found, Except.ok.inj run]
  · cases run

theorem owns_of_find? {table : ClassTable} {id : ClassId} {cls : Class}
    (found : table.find? id = some cls) : table.owns id = true := by
  rw [owns, found]
  rfl

theorem owns_eq_false_iff (table : ClassTable) (id : ClassId) :
    table.owns id = false ↔ table.find? id = none := by
  simp [owns]

/-- What a definition that is accepted has met, and what it makes. -/
theorem define_eq_ok {table extended : ClassTable} {decl : ClassDecl} {cls : Class}
    (run : table.define decl = .ok (extended, cls)) :
    decl.parent ≠ some decl.name ∧ table.names.find? decl.name = none ∧ decl.Distinct ∧
      ∃ parent, table.parentOf decl = .ok parent ∧
        cls = Class.ofDecl ⟨table.tag, table.size⟩ parent decl ∧
        extended = table.push cls := by
  unfold define at run
  cases named : table.checkName decl with
  | error failure => simp [named, bind, Except.bind] at run
  | ok checked =>
      cases found : table.parentOf decl with
      | error failure => simp [named, found, bind, Except.bind] at run
      | ok parent =>
          cases members : decl.checkMembers with
          | error failure => simp [named, found, members, bind, Except.bind] at run
          | ok distinct =>
              simp only [named, found, members, bind, Except.bind, pure, Except.pure,
                Except.ok.injEq, Prod.mk.injEq] at run
              obtain ⟨rfl, rfl⟩ := run
              unfold checkName at named
              split at named
              · cases named
              · rename_i notSelf
                split at named
                · cases named
                · rename_i free
                  refine ⟨notSelf, ?_, (decl.checkMembers_eq_ok_iff).mp members, parent, rfl,
                    rfl, rfl⟩
                  simpa [AssocMap.contains] using free

/-! ## What a table holds -/

/-- A class as its definition makes it, at its position in the table. -/
structure Placed (table : ClassTable) (index : Nat) (decl : ClassDecl) (parent : Option Class)
    (cls : Class) : Prop where
  made : cls = Class.ofDecl ⟨table.tag, index⟩ parent decl
  distinct : decl.Distinct
  parentName : decl.parent = parent.map (·.name)
  parentFound : ∀ upper, parent = some upper →
    table.find? upper.id = some upper ∧ upper.id.index < index

/-- The table holds the classes of exactly these definitions, in this order. -/
structure Holds (table : ClassTable) (decls : List ClassDecl) : Prop where
  size : table.size = decls.length
  placed : ∀ index cls, table.classes[index]? = some cls →
    ∃ decl parent, decls[index]? = some decl ∧ table.Placed index decl parent cls
  named : ∀ name id, table.names.find? name = some id ↔
    ∃ cls, table.find? id = some cls ∧ cls.name = name

theorem holds_empty (tag : Nat) : (empty tag).Holds [] where
  size := rfl
  placed index cls found := by simp [empty] at found
  named name id := by simp [empty, find?]

section Holding
variable {table : ClassTable} {decls : List ClassDecl}

theorem Placed.id_eq {index : Nat} {decl : ClassDecl} {parent : Option Class} {cls : Class}
    (placed : table.Placed index decl parent cls) : cls.id = ⟨table.tag, index⟩ := by
  rw [placed.made]
  rfl

theorem Placed.name_eq {index : Nat} {decl : ClassDecl} {parent : Option Class} {cls : Class}
    (placed : table.Placed index decl parent cls) : cls.name = decl.name := by
  rw [placed.made]
  rfl

theorem Placed.fields_eq {index : Nat} {decl : ClassDecl} {parent : Option Class} {cls : Class}
    (placed : table.Placed index decl parent cls) : cls.fields = decl.fields := by
  rw [placed.made]
  rfl

theorem Placed.methods_eq {index : Nat} {decl : ClassDecl} {parent : Option Class} {cls : Class}
    (placed : table.Placed index decl parent cls) :
    cls.methods = decl.methods.map fun method => ⟨cls.id, method.signature, method.body⟩ := by
  rw [placed.id_eq, placed.made]
  rfl

theorem Holds.placed_of_find? (holds : table.Holds decls) {id : ClassId} {cls : Class}
    (found : table.find? id = some cls) :
    ∃ decl parent, decls[id.index]? = some decl ∧ table.Placed id.index decl parent cls :=
  holds.placed id.index cls ((table.find?_eq_some_iff id cls).mp found).2

/-- A class is found under its own identity and under no other. -/
theorem Holds.id_of_find? (holds : table.Holds decls) {id : ClassId} {cls : Class}
    (found : table.find? id = some cls) : cls.id = id := by
  obtain ⟨decl, parent, _, placed⟩ := holds.placed_of_find? found
  rw [placed.id_eq, ← ((table.find?_eq_some_iff id cls).mp found).1]

theorem Holds.find?_of_lookup (holds : table.Holds decls) {name : String} {cls : Class}
    (run : table.lookup name = .ok cls) : table.find? cls.id = some cls := by
  unfold lookup idOf at run
  cases named : table.names.find? name with
  | none => simp [named, refuse, bind, Except.bind] at run
  | some id =>
      simp only [named, bind, Except.bind] at run
      have found := (table.classAt_eq_ok_iff id cls).mp run
      rw [holds.id_of_find? found, found]

theorem Holds.lookup_of_find? (holds : table.Holds decls) {id : ClassId} {cls : Class}
    (found : table.find? id = some cls) : table.lookup cls.name = .ok cls := by
  have named := (holds.named cls.name id).mpr ⟨cls, found, rfl⟩
  simp only [lookup, idOf, named, bind, Except.bind, classAt_of_find? found]

/-- Two classes of one name are the same class. -/
theorem Holds.eq_of_name_eq (holds : table.Holds decls) {left right : ClassId}
    {leftClass rightClass : Class} (leftFound : table.find? left = some leftClass)
    (rightFound : table.find? right = some rightClass)
    (same : leftClass.name = rightClass.name) : leftClass = rightClass := by
  have leftNamed := (holds.named leftClass.name left).mpr ⟨leftClass, leftFound, rfl⟩
  have rightNamed := (holds.named leftClass.name right).mpr ⟨rightClass, rightFound, same.symm⟩
  have sameId : left = right := Option.some.inj (leftNamed.symm.trans rightNamed)
  subst sameId
  exact Option.some.inj (leftFound.symm.trans rightFound)

/-- At every position of the list stands the class that was made from it. -/
theorem Holds.exists_placed (holds : table.Holds decls) {index : Nat} {decl : ClassDecl}
    (listed : decls[index]? = some decl) :
    ∃ cls parent, table.find? ⟨table.tag, index⟩ = some cls ∧
      table.Placed index decl parent cls := by
  have within : index < table.classes.size := by
    have sameSize : table.classes.size = decls.length := holds.size
    have inside := (List.getElem?_eq_some_iff.mp listed).1
    omega
  have stored : table.classes[index]? = some table.classes[index] :=
    Array.getElem?_eq_getElem within
  obtain ⟨other, parent, otherListed, placed⟩ := holds.placed index _ stored
  have sameDecl : other = decl := Option.some.inj (otherListed.symm.trans listed)
  exact ⟨_, parent, (table.find?_eq_some_iff _ _).mpr ⟨rfl, stored⟩, sameDecl ▸ placed⟩

/-- A name stands at one position of a list that a table holds. -/
theorem Holds.index_eq_of_name_eq (holds : table.Holds decls) {i j : Nat}
    {first second : ClassDecl} (isFirst : decls[i]? = some first)
    (isSecond : decls[j]? = some second) (sameName : first.name = second.name) : i = j := by
  obtain ⟨cls, _, found, placed⟩ := holds.exists_placed isFirst
  obtain ⟨twin, _, twinFound, twinPlaced⟩ := holds.exists_placed isSecond
  have same : cls = twin := holds.eq_of_name_eq found twinFound
    (by rw [placed.name_eq, twinPlaced.name_eq, sameName])
  have sameId := congrArg Class.id same
  rw [placed.id_eq, twinPlaced.id_eq] at sameId
  exact congrArg ClassId.index sameId

theorem Holds.nodup_names (holds : table.Holds decls) : (decls.map (·.name)).Nodup := by
  rw [List.nodup_iff_injective_getElem]
  intro i j same
  simp only [List.getElem_map] at same
  exact Fin.ext (holds.index_eq_of_name_eq (List.getElem?_eq_getElem _)
    (List.getElem?_eq_getElem _) same)

theorem Holds.parentOf_eq_ok (holds : table.Holds decls) {decl : ClassDecl}
    {parent : Option Class} (run : table.parentOf decl = .ok parent) :
    decl.parent = parent.map (·.name) ∧
      ∀ upper, parent = some upper → table.find? upper.id = some upper := by
  unfold parentOf at run
  cases named : decl.parent with
  | none =>
      simp only [named, Except.ok.injEq] at run
      subst parent
      simp
  | some name =>
      cases known : table.names.find? name with
      | none => simp [named, known, refuse] at run
      | some id =>
          obtain ⟨upper, found, upperName⟩ := (holds.named name id).mp known
          simp only [named, known, classAt_of_find? found, Except.map, Except.ok.injEq] at run
          subst parent
          refine ⟨by simp [upperName], ?_⟩
          rintro other same
          cases same
          rw [holds.id_of_find? found]
          exact found

theorem find?_index_lt (table : ClassTable) {id : ClassId} {cls : Class}
    (found : table.find? id = some cls) : id.index < table.size := by
  have stored := ((table.find?_eq_some_iff id cls).mp found).2
  exact (Array.getElem?_eq_some_iff.mp stored).1

theorem find?_push_of_find? {id : ClassId} {cls other : Class}
    (found : table.find? id = some other) : (table.push cls).find? id = some other := by
  have below := table.find?_index_lt found
  rw [find?_push, if_neg, found]
  rintro rfl
  exact Nat.lt_irrefl _ below

theorem Placed.push {index : Nat} {decl : ClassDecl} {parent : Option Class} {cls other : Class}
    (placed : table.Placed index decl parent other) :
    (table.push cls).Placed index decl parent other where
  made := placed.made
  distinct := placed.distinct
  parentName := placed.parentName
  parentFound upper same :=
    ⟨find?_push_of_find? (placed.parentFound upper same).1, (placed.parentFound upper same).2⟩

/-- Names go on to lead to their classes, and a free name to the new one. -/
theorem Holds.named_push (holds : table.Holds decls) {cls : Class}
    (ownId : cls.id = ⟨table.tag, table.size⟩) (free : table.names.find? cls.name = none)
    (name : String) (id : ClassId) :
    (table.push cls).names.find? name = some id ↔
      ∃ other, (table.push cls).find? id = some other ∧ other.name = name := by
  rw [push, AssocMap.find?_insert]
  split
  · rename_i same
    subst same
    constructor
    · intro known
      cases known
      exact ⟨cls, by rw [ownId]; exact (table.find?_push cls _).trans (if_pos rfl), rfl⟩
    · rintro ⟨other, known, otherName⟩
      rw [← push, find?_push] at known
      split at known
      · rename_i here
        rw [here, ownId]
      · have older := (holds.named cls.name id).mpr ⟨other, known, otherName⟩
        rw [free] at older
        cases older
  · rename_i differs
    rw [holds.named name id]
    constructor
    · rintro ⟨other, known, otherName⟩
      exact ⟨other, find?_push_of_find? known, otherName⟩
    · rintro ⟨other, known, otherName⟩
      rw [← push, find?_push] at known
      split at known
      · cases known
        exact absurd otherName.symm differs
      · exact ⟨other, known, otherName⟩

/-- An accepted definition is held after those that were held before. -/
theorem holds_define (holds : table.Holds decls) {extended : ClassTable} {decl : ClassDecl}
    {cls : Class} (run : table.define decl = .ok (extended, cls)) :
    extended.Holds (decls ++ [decl]) := by
  obtain ⟨notSelf, free, distinct, parent, found, made, rfl⟩ := define_eq_ok run
  obtain ⟨parentName, parentFound⟩ := holds.parentOf_eq_ok found
  have ownId : cls.id = ⟨table.tag, table.size⟩ := by rw [made]; rfl
  have ownName : cls.name = decl.name := by rw [made]; rfl
  refine ⟨by simp [holds.size], ?_, holds.named_push ownId (ownName ▸ free)⟩
  intro index other stored
  rw [push, Array.getElem?_push] at stored
  split at stored
  · rename_i last
    cases stored
    subst last
    refine ⟨decl, parent, ?_, made, distinct, parentName, ?_⟩
    · have here : table.classes.size = decls.length := holds.size
      simp [here]
    · intro upper same
      have known := parentFound upper same
      exact ⟨find?_push_of_find? known, table.find?_index_lt known⟩
  · obtain ⟨older, upper, listed, placed⟩ := holds.placed index other stored
    have inside := (List.getElem?_eq_some_iff.mp listed).1
    exact ⟨older, upper, by rw [List.getElem?_append_left inside, listed], placed.push⟩

end Holding

/-! ## Definitions one after another -/

/-- Those of the definitions that are accepted when all are tried in order. -/
def accepted (table : ClassTable) : List ClassDecl → List ClassDecl
  | [] => []
  | decl :: rest =>
      match table.define decl with
      | .ok (extended, _) => decl :: extended.accepted rest
      | .error _ => table.accepted rest

/-- Whatever definitions are tried, the table holds those that it accepted. -/
theorem holds_attemptAll {table : ClassTable} {held : List ClassDecl} (holds : table.Holds held)
    (decls : List ClassDecl) :
    (table.attemptAll decls).Holds (held ++ table.accepted decls) := by
  induction decls generalizing table held with
  | nil =>
      rw [accepted, List.append_nil]
      exact holds
  | cons decl rest ih =>
      rw [attemptAll, List.foldl_cons, ← attemptAll, attempt, accepted]
      cases run : table.define decl with
      | error failure => exact ih holds
      | ok made =>
          have step := ih (holds_define holds run)
          rwa [List.append_assoc] at step

theorem exists_holds_attemptAll {table : ClassTable} {held : List ClassDecl}
    (holds : table.Holds held) (decls : List ClassDecl) :
    ∃ accepted, (table.attemptAll decls).Holds accepted :=
  ⟨_, holds_attemptAll holds decls⟩

/-- A definition changes nothing of what an identity stood for. -/
theorem find?_define {table extended : ClassTable} {decl : ClassDecl} {cls other : Class}
    (run : table.define decl = .ok (extended, cls)) {id : ClassId}
    (found : table.find? id = some other) : extended.find? id = some other := by
  obtain ⟨_, _, _, _, _, _, rfl⟩ := define_eq_ok run
  exact find?_push_of_find? found

theorem tag_define {table extended : ClassTable} {decl : ClassDecl} {cls : Class}
    (run : table.define decl = .ok (extended, cls)) : extended.tag = table.tag := by
  obtain ⟨_, _, _, _, _, _, rfl⟩ := define_eq_ok run
  rfl

/-- The later table has the same tag and every class of the earlier one as it was. -/
structure Grows (before after : ClassTable) : Prop where
  tag : after.tag = before.tag
  find? : ∀ id cls, before.find? id = some cls → after.find? id = some cls

theorem Grows.refl (table : ClassTable) : table.Grows table := ⟨rfl, fun _ _ found => found⟩

theorem Grows.trans {first second third : ClassTable} (before : first.Grows second)
    (after : second.Grows third) : first.Grows third :=
  ⟨after.tag.trans before.tag, fun id cls found => after.find? id cls (before.find? id cls found)⟩

theorem grows_define {table extended : ClassTable} {decl : ClassDecl} {cls : Class}
    (run : table.define decl = .ok (extended, cls)) : table.Grows extended :=
  ⟨tag_define run, fun _ _ found => find?_define run found⟩

theorem grows_defineAll (table : ClassTable) (decls : List ClassDecl) :
    table.Grows (table.defineAll decls).1 := by
  induction decls generalizing table with
  | nil => exact .refl table
  | cons decl rest ih =>
      unfold defineAll
      cases run : table.define decl with
      | error failure => exact .refl table
      | ok made => exact (grows_define run).trans (ih _)

theorem grows_attempt (table : ClassTable) (decl : ClassDecl) :
    table.Grows (table.attempt decl) := by
  unfold attempt
  cases run : table.define decl with
  | error failure => exact .refl table
  | ok made => exact grows_define run

theorem grows_attemptAll (table : ClassTable) (decls : List ClassDecl) :
    table.Grows (table.attemptAll decls) := by
  induction decls generalizing table with
  | nil => exact .refl table
  | cons decl rest ih => exact (table.grows_attempt decl).trans (ih _)

/-- A table in which all definitions were accepted holds them all. -/
theorem holds_of_defineAll {table reached : ClassTable} {held : List ClassDecl}
    (holds : table.Holds held) (decls : List ClassDecl)
    (run : table.defineAll decls = (reached, none)) : reached.Holds (held ++ decls) := by
  induction decls generalizing table held with
  | nil =>
      cases run
      simpa using holds
  | cons decl rest ih =>
      unfold defineAll at run
      cases defined : table.define decl with
      | error failure => simp [defined] at run
      | ok made =>
          rw [defined] at run
          have step := ih (holds_define holds defined) run
          simpa using step

end ClassTable

end Lineage
