import Lineage.Proofs.Call.Coupling
import Lineage.Proofs.Store.Typing

/-!
# Descendants that add nothing

A class below another one `AddsNothing` if from it up to but without the other no field
and no method is declared.  Layout and methods are then those of the class above, so
instances of the one may stand in for instances of the other: a coupling relates two
stores that differ in the exact classes of some instances, and every step of a call keeps
it.  What differs is the name of the class in faults and in reports of dispatches
(`invoke_substituted`).
-/

set_option autoImplicit false

namespace Lineage

/-! ## Classes -/

/-- The lower class is the upper one or a descendant of it, and no class from the lower one
up to but without the upper one declares a field or a method. -/
structure ClassTable.AddsNothing (table : ClassTable) (lower upper : Class) : Prop where
  found : table.find? lower.id = some lower
  upperFound : table.find? upper.id = some upper
  bare : ∃ before after, table.Chain lower (before ++ upper :: after) ∧
    ∀ cls ∈ before, cls.fields = [] ∧ cls.methods = []

section Classes
variable {table : ClassTable} {decls : List ClassDecl} {lower upper : Class}

theorem ClassTable.Chain.layout_eq (holds : table.Holds decls) {before after : List Class}
    (chained : table.Chain lower (before ++ upper :: after))
    (found : table.find? lower.id = some lower) (bare : ∀ cls ∈ before, cls.fields = []) :
    lower.layout = upper.layout := by
  induction before generalizing lower with
  | nil =>
      obtain ⟨rest, shape⟩ := chained.eq_cons
      cases shape
      rfl
  | cons first rest ih =>
      rw [List.cons_append] at chained
      generalize list : rest ++ upper :: after = tail at chained
      cases chained with
      | root isRoot => simp at list
      | under inherits parentFound above =>
          obtain ⟨parentOwn, _, _, layout⟩ := holds.above_of_find? found inherits parentFound
          have same := ih (list ▸ above) parentOwn fun cls inRest =>
            bare cls (List.mem_cons_of_mem _ inRest)
          rw [layout, bare _ List.mem_cons_self, same]
          rfl

theorem nearest_of_bare {before : List Class} (bare : ∀ cls ∈ before, cls.methods = [])
    (rest : List Class) (signature : Signature) :
    nearest (before ++ rest) signature = nearest rest signature := by
  apply nearest_append
  intro cls inBefore
  rw [Class.declares, bare cls inBefore]
  rfl

variable (holds : table.Holds decls) (adds : table.AddsNothing lower upper)
include holds adds

theorem ClassTable.AddsNothing.layout : lower.layout = upper.layout := by
  obtain ⟨before, after, chained, bare⟩ := adds.bare
  exact chained.layout_eq holds adds.found fun cls inBefore => (bare cls inBefore).1

end Classes

/-- Both classes resolve to the same methods. -/
theorem Hierarchy.Flat.resolve_of_addsNothing {hierarchy : Hierarchy} {decls : List ClassDecl}
    (flat : hierarchy.Flat decls) {lower upper : Class}
    (adds : hierarchy.classes.AddsNothing lower upper) (signature : Signature) :
    (∃ method, hierarchy.resolve upper.id signature = .ok method ∧
      hierarchy.resolve lower.id signature = .ok method) ∨
    hierarchy.resolve upper.id signature = refuse (.noSuchMethod upper.name signature) ∧
      hierarchy.resolve lower.id signature = refuse (.noSuchMethod lower.name signature) := by
  obtain ⟨before, after, chained, bare⟩ := adds.bare
  rw [flat.resolve_eq adds.upperFound chained.of_append, flat.resolve_eq adds.found chained,
    nearest_of_bare fun cls inBefore => (bare cls inBefore).2]
  cases nearest (upper :: after) signature with
  | some method => exact .inl ⟨method, rfl, rfl⟩
  | none => exact .inr ⟨rfl, rfl⟩

/-! ## Stores, faults and events -/

/-- The stores are equal except that the instances with swapped numbers are of the upper
class in the first one and of the lower class in the second. -/
structure Store.Substituted (swapped : InstanceNo → Prop) (upper lower : Class)
    (left right : Store) : Prop where
  next : left.next = right.next
  kept : ∀ id, ¬ swapped id → left.find? id = right.find? id
  swaps : ∀ id, swapped id → ∃ inst, left.find? id = some inst ∧ inst.cls = upper.id ∧
    right.find? id = some { inst with cls := lower.id }

/-- The same fault, or the same refusal of a method or a field by the two classes. -/
inductive Fault.Renamed (upper lower : Class) : Fault → Fault → Prop where
  | same (cause : Fault) : Renamed upper lower cause cause
  | noSuchMethod (signature : Signature) :
      Renamed upper lower (.noSuchMethod upper.name signature)
        (.noSuchMethod lower.name signature)
  | unknownField (field : String) :
      Renamed upper lower (.unknownField upper.name field) (.unknownField lower.name field)

/-- The same event, or the same dispatch on receivers of the two classes. -/
inductive Event.Renamed (upper lower : Class) : Event → Event → Prop where
  | same (event : Event) : Renamed upper lower event event
  | dispatched (level : Level) (receiver : InstanceNo) (method : Signature) (owner : String)
      (depth : Nat) :
      Renamed upper lower (.dispatched level receiver upper.name method owner depth)
        (.dispatched level receiver lower.name method owner depth)

/-- The same answer, or failures that differ in the name of the class only. -/
inductive Outcome.Renamed (upper lower : Class) {α : Type} : Outcome α → Outcome α → Prop where
  | ok (value : α) : Renamed upper lower (.ok value) (.ok value)
  | fault {cause other : Fault} (alike : cause.Renamed upper lower other) :
      Renamed upper lower (.error (.fault cause)) (.error (.fault other))
  | breach : Renamed upper lower (.error .breach) (.error .breach)

structure Effect.Substituted (swapped : InstanceNo → Prop) (upper lower : Class) {α : Type}
    (one other : Effect α) : Prop where
  result : Outcome.Renamed upper lower one.result other.result
  events : List.Forall₂ (Event.Renamed upper lower) one.events other.events
  store : one.store.Substituted swapped upper lower other.store

namespace Substitution

section Stores
variable {swapped : InstanceNo → Prop} {upper lower : Class} {left right : Store}
  (stores : left.Substituted swapped upper lower right)
include stores

/-- A number stands for the same on both sides, or its instance is swapped. -/
theorem cases_find? (id : InstanceNo) :
    left.find? id = right.find? id ∧ ¬ swapped id ∨
      swapped id ∧ ∃ inst, left.find? id = some inst ∧ inst.cls = upper.id ∧
        right.find? id = some { inst with cls := lower.id } := by
  by_cases isSwapped : swapped id
  · exact .inr ⟨isSwapped, stores.swaps id isSwapped⟩
  · exact .inl ⟨stores.kept id isSwapped, isSwapped⟩

/-- A change of an instance that is not swapped, or the same change of one that is. -/
theorem put {id : InstanceNo} {inst changed twin : Instance} (live : left.find? id = some inst)
    (alike : ¬ swapped id ∧ twin = changed ∨
      changed.cls = upper.id ∧ twin = { changed with cls := lower.id } ∧ swapped id) :
    (left.put id (some changed)).Substituted swapped upper lower (right.put id (some twin)) := by
  obtain ⟨positive, given⟩ := Store.bounds_of_find? live
  have rightGiven : id < right.next := stores.next ▸ given
  refine ⟨by rw [Store.next_put, Store.next_put, stores.next], ?_, ?_⟩
  · intro other isKept
    rw [left.find?_put id other _ positive given, right.find?_put id other _ positive rightGiven]
    split
    · rename_i isChanged
      subst isChanged
      rcases alike with ⟨_, rfl⟩ | ⟨_, _, isSwapped⟩
      · rfl
      · exact absurd isSwapped isKept
    · exact stores.kept other isKept
  · intro other isSwapped
    rw [left.find?_put id other _ positive given, right.find?_put id other _ positive rightGiven]
    split
    · rename_i isChanged
      subst isChanged
      rcases alike with ⟨isKept, _⟩ | ⟨isUpper, rfl, _⟩
      · exact absurd isSwapped isKept
      · exact ⟨changed, rfl, isUpper, rfl⟩
    · exact stores.swaps other isSwapped

theorem allocate (cls : Class) (domain : Domain) :
    (left.allocate cls domain).Substituted swapped upper lower (right.allocate cls domain) := by
  refine ⟨by rw [Store.next_allocate, Store.next_allocate, stores.next], ?_, ?_⟩
  · intro id isKept
    rw [Store.find?_allocate, Store.find?_allocate, stores.next, stores.kept id isKept]
  · intro id isSwapped
    obtain ⟨inst, live, isUpper, rightLive⟩ := stores.swaps id isSwapped
    have given := (Store.bounds_of_find? live).2
    rw [Store.find?_allocate, Store.find?_allocate, ← stores.next, if_neg (Nat.ne_of_lt given),
      if_neg (Nat.ne_of_lt given)]
    exact ⟨inst, live, isUpper, rightLive⟩

end Stores

variable (swapped : InstanceNo → Prop) (upper lower : Class)

/-- Numbers correspond to themselves, the upper class to itself and to the lower one. -/
def coupling : Coupling where
  Stores left right := left.Substituted swapped upper lower right
  Same _ _ id twin := id = twin
  Faults _ _ := Fault.Renamed upper lower
  Events _ _ := Event.Renamed upper lower
  Classes id twin := twin = id ∨ id = upper.id ∧ twin = lower.id
  Methods method twin := method = twin ∧ method.body.isExpr = true
  events_mono _ _ _ related := related

variable {swapped upper lower} {left right : Store}

theorem related_iff (value other : Value) :
    value.Related (fun id twin => id = twin) other ↔ value = other := by
  constructor
  · intro related
    cases related with
    | object same => rw [same]
    | plain noObject => rfl
  · rintro rfl
    cases value with
    | object id => exact .object rfl
    | _ => exact .plain rfl

theorem eq_of_given {id twin : InstanceNo} {given : List (Value × Value)}
    (related : ∀ pair ∈ (.object id, .object twin) :: given,
      pair.1.Related ((coupling swapped upper lower).Same left right) pair.2) : id = twin :=
  (related _ List.mem_cons_self).same_of_object

/-- Every outcome corresponds to itself. -/
theorem ends_self {α : Type} {link : Link α α} (shape : ∀ value, link.Shape value value)
    (held : ∀ value, ∀ pair ∈ link.held value value, pair.1 = pair.2) (outcome : Outcome α)
    (left right : Store) :
    (coupling swapped upper lower).Ends left right link outcome outcome := by
  rcases outcome with (cause | _) | value
  · exact .fault (.same cause)
  · exact .breach
  · exact .ok (shape value) fun pair isHeld => (related_iff _ _).mpr (held value pair isHeld)

theorem ends_value (outcome : Outcome Value) (left right : Store) :
    (coupling swapped upper lower).Ends left right Link.value outcome outcome := by
  refine ends_self (fun _ => trivial) ?_ outcome left right
  intro value pair isHeld
  rw [List.mem_singleton.mp isHeld]

theorem ends_same {α : Type} (outcome : Outcome α) (left right : Store) :
    (coupling swapped upper lower).Ends left right (Link.same α) outcome outcome :=
  ends_self (fun _ => rfl) (fun _ => List.forall_mem_nil _) outcome left right

theorem ends_matching {α : Type} {Alike : α → α → Prop} (refl : ∀ value, Alike value value)
    (outcome : Outcome α) (left right : Store) :
    (coupling swapped upper lower).Ends left right (Link.matching Alike) outcome outcome :=
  ends_self refl (fun _ => List.forall_mem_nil _) outcome left right

theorem renamed_of_ends {one other : Outcome Value}
    (ends : (coupling swapped upper lower).Ends left right Link.value one other) :
    Outcome.Renamed upper lower one other := by
  cases ends with
  | @ok value twin shape held =>
      have same := (related_iff value twin).mp (held (value, twin) (List.mem_singleton_self _))
      rw [same]
      exact .ok twin
  | fault alike => exact .fault alike
  | breach => exact .breach

/-! ## The steps of a call -/

section Steps
variable {hierarchy : Hierarchy} {decls : List ClassDecl} {options : Options}
  (adds : hierarchy.classes.AddsNothing lower upper)

section Fields
variable (holds : hierarchy.classes.Holds decls)
include holds adds

/-- The field has the same place in an instance of the upper class and in its twin. -/
theorem ends_position {inst : Instance} (isUpper : inst.cls = upper.id) (field : String) :
    (coupling swapped upper lower).Ends left right (Link.same Nat) (inst.position upper field)
      ({ inst with cls := lower.id }.position lower field) := by
  have samePlace : lower.slotOf? field = upper.slotOf? field := by
    rw [Class.slotOf?, adds.layout holds]
    rfl
  simp only [Instance.position, isUpper, if_true, samePlace]
  cases upper.slotOf? field with
  | none => exact .fault (.unknownField field)
  | some slot =>
      simp only
      split
      · exact ends_same _ left right
      · exact .fault (.unknownField field)

theorem agree_read (id twin : InstanceNo) (field : String) :
    (coupling swapped upper lower).Agree [(.object id, .object twin)] Link.value
      (Dispatcher.read ⟨hierarchy, options⟩ id field)
      (Dispatcher.read ⟨hierarchy, options⟩ twin field) := by
  apply Coupling.agree_query
  intro left right stores given
  obtain rfl := eq_of_given given
  rcases cases_find? stores id with ⟨same, _⟩ | ⟨_, inst, live, isUpper, twinLive⟩
  · have sameRead : right.read hierarchy.classes id field =
        left.read hierarchy.classes id field := by
      simp only [Store.read, Store.get, same]
    rw [sameRead]
    exact ends_value _ left right
  · rw [Store.read_of_find? live (isUpper ▸ adds.upperFound),
      Store.read_of_find? twinLive adds.found]
    refine (ends_position adds holds isUpper field).bind_same ?_
    intro slot
    exact ends_value _ left right

omit adds holds in
/-- Outcomes of writes that correspond lead to corresponding stores. -/
theorem reached_of_writes (stores : left.Substituted swapped upper lower right) {id : InstanceNo}
    {inst : Instance} (live : left.find? id = some inst) {one other : Outcome Instance}
    (ends : (coupling swapped upper lower).Ends left right
      (Link.matching fun changed twin => ¬ swapped id ∧ twin = changed ∨
        changed.cls = upper.id ∧ twin = { changed with cls := lower.id } ∧ swapped id) one other)
    {change askOther : Store → Outcome Store}
    (written : change left = one.map fun changed => left.put id (some changed))
    (twinWritten : askOther right = other.map fun changed => right.put id (some changed)) :
    (coupling swapped upper lower).Reached left right (Link.same Unit)
      (Action.update change left) (Action.update askOther right) := by
  unfold Action.update
  rw [written, twinWritten]
  cases ends with
  | ok alike held => exact ⟨put stores live alike, fun _ _ same => same, .nil,
      .ok rfl (List.forall_mem_nil _)⟩
  | fault alike => exact Coupling.reached_of_ends stores (.fault alike)
  | breach => exact Coupling.reached_of_ends stores .breach

theorem agree_write (id twin : InstanceNo) (field : String) (value other : Value) :
    (coupling swapped upper lower).Agree [(.object id, .object twin), (value, other)]
      (Link.same Unit) (Dispatcher.write ⟨hierarchy, options⟩ id field value)
      (Dispatcher.write ⟨hierarchy, options⟩ twin field other) := by
  intro left right stores given
  obtain rfl := eq_of_given given
  obtain rfl : value = other :=
    (related_iff value other).mp (given _ (List.mem_cons_of_mem _ List.mem_cons_self))
  rcases cases_find? stores id with ⟨same, isKept⟩ | ⟨isSwapped, inst, live, isUpper, twinLive⟩
  · cases live : left.find? id with
    | none =>
        have dead : right.find? id = none := same ▸ live
        unfold Dispatcher.write Action.update
        simp only [Store.write, Store.get, live, dead, refuse, bind, Except.bind]
        exact Coupling.reached_of_ends stores (.fault (.same _))
    | some inst =>
        refine reached_of_writes stores live ?_
          (Store.write_eq_map live hierarchy.classes field value)
          (Store.write_eq_map (same ▸ live) hierarchy.classes field value)
        exact ends_matching (fun _ => .inl ⟨isKept, rfl⟩) _ left right
  · refine reached_of_writes stores live ?_
      (Store.write_of_find? live (isUpper ▸ adds.upperFound) field value)
      (Store.write_of_find? twinLive adds.found field value)
    refine (ends_position adds holds isUpper field).bind_same ?_
    intro slot
    exact .ok (.inr ⟨isUpper, rfl, isSwapped⟩) (List.forall_mem_nil _)

end Fields

theorem agree_domain (id twin : InstanceNo) :
    (coupling swapped upper lower).Agree [(.object id, .object twin)] (Link.same Domain)
      (Action.query fun store => store.domainOf id)
      (Action.query fun store => store.domainOf twin) := by
  apply Coupling.agree_query
  intro left right stores given
  obtain rfl := eq_of_given given
  rcases cases_find? stores id with ⟨same, _⟩ | ⟨_, inst, live, _, twinLive⟩
  · simp only [Store.domainOf, Store.get, same]
    exact ends_same _ left right
  · simp only [Store.domainOf, Store.get, live, twinLive]
    exact ends_same (.ok inst.domain) left right

include adds in
/-- A look-up that knows both classes leads from identities that correspond to the same
class, or to the two classes. -/
theorem ends_look {look : ClassId → Outcome Class}
    (knows : ∀ {cls : Class}, hierarchy.classes.find? cls.id = some cls → look cls.id = .ok cls)
    {cls other : ClassId} (classes : (coupling swapped upper lower).Classes cls other)
    (left right : Store) :
    (coupling swapped upper lower).Ends left right
      (Link.matching fun exact view => view = exact ∨ exact = upper ∧ view = lower)
      (look cls) (look other) := by
  rcases classes with rfl | ⟨rfl, rfl⟩
  · exact ends_matching (fun _ => .inl rfl) _ left right
  · rw [knows adds.upperFound, knows adds.found]
    exact .ok (.inr ⟨rfl, rfl⟩) (List.forall_mem_nil _)

theorem agree_exact (id twin : InstanceNo) :
    (coupling swapped upper lower).Agree [(.object id, .object twin)]
      (Link.matching (coupling swapped upper lower).Classes)
      (Action.query fun store => store.classOf id)
      (Action.query fun store => store.classOf twin) := by
  apply Coupling.agree_query
  intro left right stores given
  obtain rfl := eq_of_given given
  rcases cases_find? stores id with ⟨same, _⟩ | ⟨_, inst, live, isUpper, twinLive⟩
  · simp only [Store.classOf, Store.get, same]
    exact ends_matching (fun _ => .inl rfl) _ left right
  · simp only [Store.classOf, Store.get, live, twinLive]
    exact .ok (.inr ⟨isUpper, rfl⟩) (List.forall_mem_nil _)

include adds in
theorem agree_classOf (id twin : InstanceNo) :
    (coupling swapped upper lower).Agree [(.object id, .object twin)]
      (Link.matching (coupling swapped upper lower).Classes)
      (Dispatcher.classOf ⟨hierarchy, options⟩ id)
      (Dispatcher.classOf ⟨hierarchy, options⟩ twin) := by
  refine (agree_exact id twin).bind ?_
  intro cls other classes
  refine (Coupling.agree_lift (ends_look adds ClassTable.get_of_find? classes)).bind ?_
  intro exact view sameOrSwapped
  refine Coupling.agree_pure ?_ (List.nil_subset _)
  rcases sameOrSwapped with rfl | ⟨rfl, rfl⟩
  · exact .inl rfl
  · exact .inr ⟨rfl, rfl⟩

theorem agree_allocate (cls : String) (domain : Domain) :
    (coupling swapped upper lower).Agree [] Link.number
      (Dispatcher.allocate ⟨hierarchy, options⟩ cls domain)
      (Dispatcher.allocate ⟨hierarchy, options⟩ cls domain) := by
  refine (Coupling.agree_lift fun left right => ends_same _ left right).bind_same ?_
  intro found left right stores given
  refine ⟨allocate stores found domain, fun _ _ same => same, ?_, .ok trivial ?_⟩
  · simp only [Action.allocate, stores.next]
    exact .cons (.same _) .nil
  · intro pair isHeld
    rw [List.mem_singleton.mp isHeld]
    exact .object stores.next

include adds in
theorem agree_announce {cls other : ClassId}
    (classes : (coupling swapped upper lower).Classes cls other) (id twin : InstanceNo)
    (method : Method) (depth : Nat) :
    (coupling swapped upper lower).Agree [(.object id, .object twin)] (Link.same Unit)
      (Dispatcher.announce ⟨hierarchy, options⟩ id cls method depth)
      (Dispatcher.announce ⟨hierarchy, options⟩ twin other method depth) := by
  refine (Coupling.agree_lift (ends_look adds ClassTable.classAt_of_find? classes)).bind ?_
  intro exact view sameOrSwapped
  refine (Coupling.agree_lift fun left right => ends_same _ left right).bind_same ?_
  intro owner left right stores given
  obtain rfl := eq_of_given given
  refine ⟨stores, fun _ _ same => same, .cons ?_ .nil, .ok rfl (List.forall_mem_nil _)⟩
  rcases sameOrSwapped with rfl | ⟨rfl, rfl⟩
  · exact .same _
  · exact .dispatched _ _ _ _ _

theorem ends_method {outcome : Outcome Method}
    (isExpr : ∀ method, outcome = .ok method → method.body.isExpr = true) (left right : Store) :
    (coupling swapped upper lower).Ends left right
      (Link.matching (coupling swapped upper lower).Methods) outcome outcome := by
  rcases outcome with (cause | _) | method
  · exact .fault (.same cause)
  · exact .breach
  · exact .ok ⟨rfl, isExpr method rfl⟩ (List.forall_mem_nil _)

variable (flat : hierarchy.Flat decls) (plain : hierarchy.Plain)
include adds flat plain

theorem respected : (coupling swapped upper lower).Respected ⟨hierarchy, options⟩
    ⟨hierarchy, options⟩ where
  limit := rfl
  raise _ _ cause _ := .same cause
  bodies := by
    rintro method _ ⟨rfl, isExpr⟩
    obtain ⟨body, isBody⟩ := exists_expr_of_isExpr isExpr
    exact ⟨rfl, body, isBody, isBody⟩
  domain := agree_domain
  classOf := agree_classOf adds
  read := agree_read adds flat.holds
  write := agree_write adds flat.holds
  allocate := agree_allocate
  resolve left right id twin signature classes := by
    rcases classes with rfl | ⟨rfl, rfl⟩
    · exact ends_method (fun method => flat.isExpr_of_resolve plain) left right
    · obtain ⟨method, resolved, lowerResolved⟩ | ⟨nothing, lowerNothing⟩ :=
        flat.resolve_of_addsNothing adds signature
      · rw [resolved, lowerResolved]
        exact .ok ⟨rfl, flat.isExpr_of_resolve plain resolved⟩ (List.forall_mem_nil _)
      · rw [nothing, lowerNothing]
        exact .fault (.noSuchMethod signature)
  inherited left right method twin signature methods := by
    obtain ⟨rfl, _⟩ := methods
    refine ends_method ?_ left right
    intro inherited run
    obtain ⟨parent, resolved⟩ := Hierarchy.resolve_of_inheritedMethod run
    exact flat.isExpr_of_resolve plain resolved
  announce id twin cls other method methodTwin depth classes methods := by
    obtain ⟨rfl, _⟩ := methods
    exact agree_announce adds classes id twin method depth

end Steps

end Substitution

/-- Instances of a class and of a descendant that adds nothing to it are not told apart by a
call: with some of the ones in place of the others, every call through the same reference
ends with the same value, or with the same fault up to the name of the class in a missing
method or field, does the same to the store and reports the same but for the name of the
class.  The reference need not even fit its target. -/
theorem Dispatcher.invoke_substituted {hierarchy : Hierarchy} (isSealed : hierarchy.Sealed)
    (plain : hierarchy.Plain) {upper lower : Class}
    (adds : hierarchy.classes.AddsNothing lower upper) {swapped : InstanceNo → Prop}
    {left right : Store} (stores : left.Substituted swapped upper lower right)
    (options : Options) (reference : Reference) (signature : Signature) (args : List Value) :
    Effect.Substituted swapped upper lower
      (invoke ⟨hierarchy, options⟩ reference signature args left)
      (invoke ⟨hierarchy, options⟩ reference signature args right) := by
  obtain ⟨decls, flat⟩ := isSealed.exists_flat
  have respected : (Substitution.coupling swapped upper lower).Respected
      ⟨hierarchy, options⟩ ⟨hierarchy, options⟩ := Substitution.respected adds flat plain
  have agree := agree_invoke respected reference reference signature args args rfl
    (Substitution.ends_same _)
  have given : ∀ pair ∈ (Value.object reference.target, Value.object reference.target) ::
      args.zip args, pair.1.Related (fun id twin => id = twin) pair.2 := by
    intro pair isGiven
    rw [Substitution.related_iff]
    rcases List.mem_cons.mp isGiven with rfl | inArgs
    · rfl
    · rw [List.zip_eq_zipWith, List.zipWith_self, List.mem_map] at inArgs
      obtain ⟨value, _, rfl⟩ := inArgs
      rfl
  obtain ⟨storesAfter, _, events, ends⟩ := agree left right stores given
  exact ⟨Substitution.renamed_of_ends ends, events, storesAfter⟩

/-- The sample with sprigs, which are leaves and declare nothing of their own. -/
def sproutDecls : List ClassDecl :=
  sampleDecls ++
    [{ name := "Twig", parent := some "Leaf" }, { name := "Sprig", parent := some "Twig" }]

def sproutHierarchy : Hierarchy :=
  match Hierarchy.build 1 sproutDecls with
  | .ok hierarchy => hierarchy
  | .error _ => ⟨.empty 1, #[]⟩

def sproutClass (index : Nat)
    (isSome : (sproutHierarchy.classes.find? ⟨1, index⟩).isSome = true) : Class :=
  (sproutHierarchy.classes.find? ⟨1, index⟩).get isSome

theorem sprig_addsNothing :
    sproutHierarchy.classes.AddsNothing (sproutClass 3 rfl) (sproutClass 1 rfl) where
  found := rfl
  upperFound := rfl
  bare := ⟨[sproutClass 3 rfl, sproutClass 2 rfl], [sproutClass 0 rfl],
    .under rfl rfl (.under rfl rfl (.under rfl rfl (.root rfl))),
    List.forall_mem_cons.mpr ⟨⟨rfl, rfl⟩, List.forall_mem_singleton.mpr ⟨rfl, rfl⟩⟩⟩

/-- A node and a leaf in a store, and a node and a sprig in another one. -/
def sproutStore (cls : ClassId) : Store :=
  ⟨#[some ⟨⟨1, 0⟩, .managed, [.object 2, .str "node"]⟩,
     some ⟨cls, .unmanaged, [.nil, .str "node", .str "leaf"]⟩]⟩

theorem substituted_sproutStore : (sproutStore ⟨1, 1⟩).Substituted (· = 2)
    (sproutClass 1 rfl) (sproutClass 3 rfl) (sproutStore ⟨1, 3⟩) where
  next := rfl
  kept id isKept := by
    match id with
    | 0 => rfl
    | 1 => rfl
    | 2 => exact absurd rfl isKept
    | cell + 3 => simp [Store.find?, sproutStore]
  swaps id isSwapped := by
    subst isSwapped
    exact ⟨_, rfl, rfl, rfl⟩

/-- A sprig links itself as a leaf does, with the same label, and then fails as a leaf
does, under its own name. -/
theorem sprig_in_place_of_leaf :
    let leaf := sproutClass 1 rfl
    let sprig := sproutClass 3 rfl
    let link := Dispatcher.invoke ⟨sproutHierarchy, {}⟩ ⟨2, ⟨1, 1⟩⟩ ⟨"link", 1⟩ [.object 1]
    sproutHierarchy.Sealed ∧ sproutHierarchy.Plain ∧
      sproutHierarchy.classes.AddsNothing sprig leaf ∧
      (sproutStore ⟨1, 1⟩).Substituted (· = 2) leaf sprig (sproutStore ⟨1, 3⟩) ∧
      (link (sproutStore ⟨1, 1⟩)).result = refuse (.noSuchMethod "Leaf" ⟨"cut", 0⟩) ∧
      (link (sproutStore ⟨1, 3⟩)).result = refuse (.noSuchMethod "Sprig" ⟨"cut", 0⟩) ∧
      Effect.Substituted (· = 2) leaf sprig (link (sproutStore ⟨1, 1⟩))
        (link (sproutStore ⟨1, 3⟩)) := by
  have isSealed : sproutHierarchy.Sealed := ⟨1, sproutDecls, rfl⟩
  have plain : sproutHierarchy.Plain := by decide
  have stores := substituted_sproutStore
  exact ⟨isSealed, plain, sprig_addsNothing, stores, rfl, rfl,
    Dispatcher.invoke_substituted isSealed plain sprig_addsNothing stores {} _ _ _⟩

end Lineage
