import Lineage.Proofs.Store.Evolution

/-!
# Two runs side by side

One dispatcher is run on two stores that hold like instances under the same numbers.  An
instance of the dispatcher's own table may differ from its twin in the domain only, one of
another table more freely; a `Pairing` says how freely, and what is compared of the
events.  `Agree` says of two actions that they end alike, report alike and lead to stores
that are alike again.  Sequencing keeps it, and it holds of every step (`agree_classOf`,
`agree_read`, `agree_write`, `agree_allocate`), so it can be followed through whole calls.
-/

set_option autoImplicit false

namespace Lineage

/-- The number stands for an instance of one of the table's classes. -/
def Store.Local (classes : ClassTable) (store : Store) (id : InstanceNo) : Prop :=
  ∃ inst cls, store.find? id = some inst ∧ classes.find? inst.cls = some cls

theorem Store.Local.lasts {classes : ClassTable} {before after : Store} {id : InstanceNo}
    (isLocal : before.Local classes id) (lasts : before.Lasts after) : after.Local classes id := by
  obtain ⟨inst, cls, live, found⟩ := isLocal
  obtain ⟨now, nowLive, same⟩ := lasts.kept id inst live (fun impossible => impossible)
  exact ⟨now, cls, nowLive, by rw [same.cls, found]⟩

namespace Instance

/-- A write looks at the class and the slots only. -/
theorem write_withDomain (inst : Instance) (domain : Domain) (view : Class) (field : String)
    (value : Value) :
    { inst with domain := domain }.write view field value =
      (inst.write view field value).map fun changed => { changed with domain := domain } := by
  have samePosition : { inst with domain := domain }.position view field =
      inst.position view field := rfl
  unfold write
  rw [samePosition]
  cases inst.position view field <;> rfl

theorem sameShape_of_write {inst changed : Instance} {view : Class} {field : String}
    {value : Value} (run : inst.write view field value = .ok changed) :
    inst.SameShape changed := by
  unfold write at run
  cases placed : inst.position view field with
  | error failure =>
      rw [placed] at run
      cases run
  | ok slot =>
      rw [placed] at run
      cases run
      exact inst.sameShape_set slot value

end Instance

/-- How far two stores may differ. -/
structure Pairing where
  /-- The domains of an instance of the table and of its twin. -/
  Domains : Domain → Domain → Prop
  /-- An instance of another table and its twin, which is of the same class. -/
  Foreign : Instance → Instance → Prop
  /-- What is compared of an event. -/
  event : Event → Event
  allocated : ∀ id cls {domain twin : Domain}, Domains domain twin →
    event (.allocated id cls domain) = event (.allocated id cls twin)

namespace Pairing

variable (pairing : Pairing) (classes : ClassTable)

inductive Alike : Instance → Instance → Prop where
  | own {inst : Instance} {cls : Class} {domain : Domain}
      (found : classes.find? inst.cls = some cls) (domains : pairing.Domains inst.domain domain) :
      Alike inst { inst with domain := domain }
  | foreign {inst twin : Instance} (notFound : classes.find? inst.cls = none)
      (sameClass : twin.cls = inst.cls) (related : pairing.Foreign inst twin) : Alike inst twin

/-- Like instances under the same numbers. -/
structure Stores (left right : Store) : Prop where
  next : left.next = right.next
  alike : ∀ id, Option.Rel (pairing.Alike classes) (left.find? id) (right.find? id)

section Effects
variable {α : Type}

/-- The same end, like events and stores that are alike. -/
structure Reached (left : Store) (one other : Effect α) : Prop where
  result : one.result = other.result
  events : one.events.map pairing.event = other.events.map pairing.event
  stores : pairing.Stores classes one.store other.store
  lasts : left.Lasts one.store

/-- From stores that are alike, and in which the given numbers stand for instances of the
table, both actions reach the same. -/
def Agree (given : List InstanceNo) (first second : Action α) : Prop :=
  ∀ left right, pairing.Stores classes left right → (∀ id ∈ given, left.Local classes id) →
    pairing.Reached classes left (first left) (second right)

end Effects

variable {pairing classes} {α β : Type} {given : List InstanceNo} {left right : Store}

theorem reached_of_result (stores : pairing.Stores classes left right) (outcome : Outcome α) :
    pairing.Reached classes left ⟨outcome, left, []⟩ ⟨outcome, right, []⟩ :=
  ⟨rfl, rfl, stores, left.lasts_refl⟩

theorem Agree.weaken {more : List InstanceNo} {first second : Action α} (included : given ⊆ more)
    (agree : pairing.Agree classes given first second) :
    pairing.Agree classes more first second := by
  intro left right stores isLocal
  exact agree left right stores fun id member => isLocal id (included member)

theorem agree_lift (outcome : Outcome α) :
    pairing.Agree classes given (Action.lift outcome) (Action.lift outcome) := by
  intro left right stores _
  exact reached_of_result stores outcome

theorem agree_emit (event : Event) :
    pairing.Agree classes given (Action.emit event) (Action.emit event) := by
  intro left right stores _
  exact ⟨rfl, rfl, stores, left.lasts_refl⟩

theorem agree_query {ask askTwin : Store → Outcome α}
    (same : ∀ left right, pairing.Stores classes left right →
      (∀ id ∈ given, left.Local classes id) → ask left = askTwin right) :
    pairing.Agree classes given (Action.query ask) (Action.query askTwin) := by
  intro left right stores isLocal
  rw [Action.run_query, Action.run_query, same left right stores isLocal]
  exact reached_of_result stores _

theorem Agree.bind {first second : Action α} {next after : α → Action β}
    (agree : pairing.Agree classes given first second)
    (rest : ∀ value, pairing.Agree classes given (next value) (after value)) :
    pairing.Agree classes given (first >>= next) (second >>= after) := by
  intro left right stores isLocal
  have reached := agree left right stores isLocal
  rcases run : first left with ⟨outcome, leftMid, events⟩
  rcases twinRun : second right with ⟨twinOutcome, rightMid, twinEvents⟩
  rw [run, twinRun] at reached
  obtain ⟨sameResult, sameEvents, midStores, lasts⟩ := reached
  cases sameResult
  cases outcome with
  | error failure =>
      rw [Action.run_bind_of_error run, Action.run_bind_of_error twinRun]
      exact ⟨rfl, sameEvents, midStores, lasts⟩
  | ok value =>
      rw [Action.run_bind_of_ok run, Action.run_bind_of_ok twinRun]
      have last := rest value leftMid rightMid midStores
        fun id member => (isLocal id member).lasts lasts
      refine ⟨last.result, ?_, last.stores, lasts.trans last.lasts⟩
      rw [List.map_append, List.map_append, sameEvents, last.events]

theorem Agree.attempt {first second : Action α}
    (agree : pairing.Agree classes given first second) :
    pairing.Agree classes given (Action.attempt first) (Action.attempt second) := by
  intro left right stores isLocal
  have reached := agree left right stores isLocal
  rcases run : first left with ⟨outcome, leftMid, events⟩
  rcases twinRun : second right with ⟨twinOutcome, rightMid, twinEvents⟩
  rw [run, twinRun] at reached
  obtain ⟨sameResult, sameEvents, midStores, lasts⟩ := reached
  cases sameResult
  rcases outcome with (cause | _) | value
  all_goals
    simp only [Action.attempt, run, twinRun]
    exact ⟨rfl, sameEvents, midStores, lasts⟩

theorem sequential : Sequential (pairing.Agree classes) where
  weaken := Agree.weaken
  lift := agree_lift
  bind := Agree.bind
  attempt := Agree.attempt

/-! ## Steps -/

/-- The three things that a number can stand for in stores that are alike. -/
theorem Stores.cases (stores : pairing.Stores classes left right) (id : InstanceNo) :
    (left.find? id = none ∧ right.find? id = none) ∨
      (∃ inst cls domain, left.find? id = some inst ∧ classes.find? inst.cls = some cls ∧
        right.find? id = some { inst with domain := domain } ∧
          pairing.Domains inst.domain domain) ∨
      ∃ inst twin, left.find? id = some inst ∧ classes.find? inst.cls = none ∧
        right.find? id = some twin ∧ twin.cls = inst.cls := by
  have alike := stores.alike id
  generalize left.find? id = content at alike
  generalize right.find? id = twinContent at alike
  cases alike with
  | none => exact .inl ⟨rfl, rfl⟩
  | some alike =>
      cases alike with
      | own found domains => exact .inr (.inl ⟨_, _, _, rfl, found, rfl, domains⟩)
      | foreign notFound sameClass _ => exact .inr (.inr ⟨_, _, rfl, notFound, rfl, sameClass⟩)

/-- What depends on the class and the slots of an instance of the table is the same of
its twin, and all other numbers are refused alike. -/
theorem Stores.same_of_local (stores : pairing.Stores classes left right) (id : InstanceNo)
    {ask : Instance → Class → Outcome α}
    (same : ∀ inst cls domain, ask { inst with domain := domain } cls = ask inst cls) :
    (left.get id >>= fun inst => classes.get inst.cls >>= ask inst) =
      (right.get id >>= fun inst => classes.get inst.cls >>= ask inst) := by
  rcases stores.cases id with ⟨dead, twinDead⟩ | ⟨inst, cls, domain, live, _, twinLive, _⟩ |
    ⟨inst, twin, live, notFound, twinLive, sameClass⟩
  · simp only [Store.get, dead, twinDead]
  · simp only [Store.get, live, twinLive, bind, Except.bind, same]
  · simp only [Store.get, live, twinLive, bind, Except.bind, ClassTable.get, sameClass, notFound,
      refuse]

theorem Stores.put (stores : pairing.Stores classes left right) {id : InstanceNo}
    {inst : Instance} (live : left.find? id = some inst) {changed twinChanged : Instance}
    (alike : pairing.Alike classes changed twinChanged) :
    pairing.Stores classes (left.put id (some changed)) (right.put id (some twinChanged)) where
  next := by rw [Store.next_put, Store.next_put, stores.next]
  alike other := by
    obtain ⟨positive, given⟩ := Store.bounds_of_find? live
    rw [Store.find?_put left id other _ positive given,
      Store.find?_put right id other _ positive (stores.next ▸ given)]
    split
    · exact .some alike
    · exact stores.alike other

theorem Stores.allocate (stores : pairing.Stores classes left right) {cls : Class}
    (found : classes.find? cls.id = some cls) {domain twin : Domain}
    (domains : pairing.Domains domain twin) :
    pairing.Stores classes (left.allocate cls domain) (right.allocate cls twin) where
  next := by rw [Store.next_allocate, Store.next_allocate, stores.next]
  alike id := by
    rw [Store.find?_allocate, Store.find?_allocate, stores.next]
    split
    · have alike : pairing.Alike classes (.ofClass cls domain)
          { Instance.ofClass cls domain with domain := twin } := .own found domains
      exact .some alike
    · exact stores.alike id

theorem agree_read (id : InstanceNo) (field : String) :
    pairing.Agree classes given (Action.query fun store => store.read classes id field)
      (Action.query fun store => store.read classes id field) :=
  agree_query fun _ _ stores _ => stores.same_of_local id fun _ _ _ => rfl

theorem agree_write (id : InstanceNo) (field : String) (value : Value) :
    pairing.Agree classes given (Action.update fun store => store.write classes id field value)
      (Action.update fun store => store.write classes id field value) := by
  intro left right stores _
  have refused : ∀ failure, left.write classes id field value = .error failure →
      right.write classes id field value = .error failure →
        pairing.Reached classes left
          (Action.update (fun store => store.write classes id field value) left)
          (Action.update (fun store => store.write classes id field value) right) := by
    intro failure failed twinFailed
    simp only [Action.update, failed, twinFailed]
    exact reached_of_result stores _
  rcases stores.cases id with ⟨dead, twinDead⟩ |
    ⟨inst, cls, domain, live, found, twinLive, domains⟩ |
    ⟨inst, twin, live, notFound, twinLive, sameClass⟩
  · refine refused (.fault (.unknownInstance id)) ?_ ?_ <;>
      simp only [Store.write, Store.get, dead, twinDead] <;> rfl
  · have written := Store.write_of_find? live found field value
    have twinWritten := Store.write_of_find? twinLive found field value
    rw [Instance.write_withDomain] at twinWritten
    cases run : inst.write cls field value with
    | error failure =>
        rw [run] at written twinWritten
        exact refused failure written twinWritten
    | ok changed =>
        rw [run] at written twinWritten
        have shape := Instance.sameShape_of_write run
        have alike : pairing.Alike classes changed { changed with domain := domain } :=
          .own (by rw [shape.cls, found]) (by rwa [shape.domain])
        have lasts := Store.evolves_write written
        simp only [Action.update, written, twinWritten]
        exact ⟨rfl, rfl, stores.put live alike, lasts⟩
  · refine refused (.fault (.unknownClass inst.cls.text)) ?_ ?_ <;>
      simp only [Store.write, Store.get, live, twinLive, sameClass, ClassTable.get, notFound,
        bind, Except.bind, refuse]

variable {decls : List ClassDecl}

theorem agree_allocateNamed (holds : classes.Holds decls) (cls : String) {domain twin : Domain}
    (domains : pairing.Domains domain twin) :
    pairing.Agree classes given (Action.allocateNamed classes cls domain)
      (Action.allocateNamed classes cls twin) := by
  intro left right stores _
  unfold Action.allocateNamed
  cases known : classes.lookup cls with
  | error failure =>
      rw [Action.lift_error_bind, Action.lift_error_bind]
      exact reached_of_result stores _
  | ok found =>
      rw [Action.lift_ok_bind, Action.lift_ok_bind]
      refine ⟨congrArg Except.ok stores.next, ?_, ?_, left.evolves_allocate found domain⟩
      · simp only [Action.allocate, List.map_cons, List.map_nil, stores.next,
          pairing.allocated _ _ domains]
      · exact stores.allocate (holds.find?_of_lookup known) domains

variable {dispatcher : Dispatcher}

/-- A number whose class is known is that of an instance of the table. -/
theorem agree_classOf (id : InstanceNo) {next after : ClassId → Action α}
    (rest : ∀ cls, pairing.Agree dispatcher.hierarchy.classes (id :: given) (next cls)
      (after cls)) :
    pairing.Agree dispatcher.hierarchy.classes given (dispatcher.classOf id >>= next)
      (dispatcher.classOf id >>= after) := by
  intro left right stores isLocal
  rcases stores.cases id with ⟨dead, twinDead⟩ | ⟨inst, cls, domain, live, found, twinLive, _⟩ |
    ⟨inst, twin, live, notFound, twinLive, sameClass⟩
  · rw [Action.run_bind_of_error (Dispatcher.classOf_of_dead dead),
      Action.run_bind_of_error (Dispatcher.classOf_of_dead twinDead)]
    exact reached_of_result stores _
  · rw [Action.run_bind_of_ok (Dispatcher.classOf_of_live live found),
      Action.run_bind_of_ok (Dispatcher.classOf_of_live twinLive found)]
    exact rest cls.id left right stores
      (List.forall_mem_cons.mpr ⟨⟨inst, cls, live, found⟩, isLocal⟩)
  · have twinNotFound : dispatcher.hierarchy.classes.find? twin.cls = none := by
      rw [sameClass, notFound]
    rw [Action.run_bind_of_error (Dispatcher.classOf_of_foreign live notFound),
      Action.run_bind_of_error (Dispatcher.classOf_of_foreign twinLive twinNotFound), sameClass]
    exact reached_of_result stores _

end Pairing

end Lineage
