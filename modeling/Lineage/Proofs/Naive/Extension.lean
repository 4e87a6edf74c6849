import Mathlib.Data.List.Perm.Subperm
import Lineage.Proofs.Naive.Host

/-!
# More definitions, in another order

A list of definitions that has all those of another one gives every name of the other
the same line of definitions (`extends_of_subset`).  So an interpreter with the larger
list does on objects of the smaller one what an interpreter with the smaller list does,
until that one ends for a class that only the larger list has (`Agrees`): this is shown
for the operations on single objects and follows the evaluation and the nesting of calls
(`agrees_run`).
-/

set_option autoImplicit false

namespace Lineage

namespace Naive

def Defined (decls : List ClassDecl) (name : String) : Prop :=
  ∃ decl, define? decls name = some decl

/-- The larger list means by every name of the smaller one what the smaller one means,
which names a parent only if it has it. -/
structure Extends (small large : List ClassDecl) : Prop where
  define? : ∀ {name decl}, define? small name = some decl → define? large name = some decl
  lineage : ∀ {name}, Defined small name → lineage large name = lineage small name
  parent : ∀ {name decl upper}, Naive.define? small name = some decl →
    decl.parent = some upper → Defined small upper

/-! ## Lists of definitions -/

section Lists
variable {table other : ClassTable} {small large : List ClassDecl}

theorem nodup_of_holds (holds : table.Holds small) : small.Nodup :=
  List.Nodup.of_map _ holds.nodup_names

theorem define?_of_mem (holds : table.Holds small) {decl : ClassDecl} (listed : decl ∈ small) :
    define? small decl.name = some decl := by
  cases defined : define? small decl.name with
  | none =>
      have unnamed := List.find?_eq_none.mp defined decl listed
      simp at unnamed
  | some other =>
      have sameName := name_of_define? defined
      obtain ⟨i, isOther⟩ := List.mem_iff_getElem?.mp (List.mem_of_find?_eq_some defined)
      obtain ⟨j, isDecl⟩ := List.mem_iff_getElem?.mp listed
      rw [holds.index_eq_of_name_eq isOther isDecl sameName, isDecl] at isOther
      exact isOther.symm

/-- A line of definitions is made of definitions. -/
theorem define?_of_mem_climb {steps : Nat} {name : String} {decl : ClassDecl}
    (inLine : decl ∈ climb small steps name) : define? small decl.name = some decl := by
  induction steps generalizing name with
  | zero => cases inLine
  | succ steps ih =>
      rw [climb] at inLine
      cases defined : define? small name with
      | none => simp [defined] at inLine
      | some first =>
          have isFirst : define? small first.name = some first := by
            rw [name_of_define? defined, defined]
          cases named : first.parent with
          | none =>
              simp only [defined, named, List.mem_singleton] at inLine
              exact inLine ▸ isFirst
          | some parent =>
              simp only [defined, named, List.mem_cons] at inLine
              rcases inLine with rfl | above
              · exact isFirst
              · exact ih above

/-- With steps enough for the chain, a list that means by every name what the smaller one
does climbs the same line. -/
theorem climb_eq_climb (holds : table.Holds small)
    (same : ∀ {name decl}, define? small name = some decl → define? large name = some decl)
    {cls : Class} {chain : List Class} (chained : table.Chain cls chain)
    (found : table.find? cls.id = some cls) (steps more : Nat) (enough : chain.length ≤ steps)
    (enoughMore : chain.length ≤ more) :
    climb large more cls.name = climb small steps cls.name := by
  -- The chain, not the steps, is what both climbs follow: their counts differ.
  induction chained generalizing steps more with
  | root isRoot =>
      obtain ⟨decl, defined, made⟩ := exists_define? holds found
      obtain ⟨steps, rfl⟩ := Nat.exists_eq_add_of_le' enough
      obtain ⟨more, rfl⟩ := Nat.exists_eq_add_of_le' enoughMore
      simp [climb, defined, same defined, made.root isRoot]
  | under inherits upperFound above ih =>
      obtain ⟨decl, defined, made⟩ := exists_define? holds found
      obtain ⟨known, isKnown, parentName⟩ := made.parent inherits
      have sameClass := Option.some.inj (upperFound.symm.trans isKnown)
      subst sameClass
      obtain ⟨upperOwn, _⟩ := holds.above_of_find? found inherits upperFound
      cases steps with
      | zero => simp at enough
      | succ steps =>
          cases more with
          | zero => simp at enoughMore
          | succ more =>
              have further := ih upperOwn steps more (by simpa using enough)
                (by simpa using enoughMore)
              simp only [climb, defined, same defined, parentName, further]

theorem extends_of_subset (holds : table.Holds small) (otherHolds : other.Holds large)
    (subset : small ⊆ large) : Extends small large := by
  have same : ∀ {name decl}, define? small name = some decl →
      define? large name = some decl := by
    intro name decl defined
    have listed := subset (List.mem_of_find?_eq_some defined)
    exact name_of_define? defined ▸ define?_of_mem otherHolds listed
  refine ⟨same, ?_, ?_⟩
  · rintro name ⟨decl, defined⟩
    obtain ⟨cls, _, rfl, made⟩ := exists_made_of_define? holds defined
    obtain ⟨chain, chained⟩ := holds.exists_chain made.found
    have bound : chain.length ≤ small.length := by
      have length := chained.length_le holds made.found
      have inside := table.find?_index_lt made.found
      have size := holds.size
      omega
    have notShorter := ((nodup_of_holds holds).subperm subset).length_le
    exact climb_eq_climb holds same chained made.found _ _ bound (Nat.le_trans bound notShorter)
  · intro name decl upper defined parentName
    obtain ⟨cls, _, _, made⟩ := exists_made_of_define? holds defined
    obtain ⟨parent, placed⟩ := made.placed
    cases parent with
    | none =>
        rw [placed.parentName] at parentName
        cases parentName
    | some parentClass =>
        rw [placed.parentName] at parentName
        cases parentName
        obtain ⟨above, defined, _⟩ :=
          exists_define? holds (placed.parentFound parentClass rfl).1
        exact ⟨above, defined⟩

end Lists

/-! ## Runs with more definitions -/

/-- All objects are of defined classes. -/
def Heap.Within (decls : List ClassDecl) (heap : Heap) : Prop :=
  ∀ id object, heap.objects id = some object → Defined decls object.cls

/-- The fault that a class is unknown which only the larger list defines. -/
def Missing (small large : List ClassDecl) (cause : Fault) : Prop :=
  ∃ name, cause = .unknownClass name ∧ define? small name = none ∧ Defined large name

/-- The second computation does what the first one does, unless that one ends for a
missing class; the heap stays within the smaller list. -/
def Agrees (small large : List ClassDecl) {α : Type} (Good : α → Prop) (first second : Run α) :
    Prop :=
  ∀ heap : Heap, heap.Within small →
    (∃ cause, Missing small large cause ∧ (first.on heap).1 = .error cause) ∨
      (second.on heap = first.on heap ∧ (first.on heap).2.Within small ∧
        ∀ value, (first.on heap).1 = .ok value → Good value)

section Agreement
variable {small large : List ClassDecl} {α β : Type} {Good : α → Prop} {Fine : β → Prop}

/-- A computation that leaves the heap alone agrees with itself. -/
theorem agrees_of_still {run : Run α} {result : Except Fault α}
    (still : ∀ heap, run.on heap = (result, heap))
    (good : ∀ value, result = .ok value → Good value) :
    Agrees small large Good run run := by
  intro heap within
  refine .inr ⟨rfl, ?_, ?_⟩
  · rw [still heap]
    exact within
  · rw [still heap]
    exact good

theorem agrees_pure {value : α} (good : Good value) :
    Agrees small large Good (pure value) (pure value) :=
  agrees_of_still (fun _ => rfl) fun _ same => Except.ok.inj same ▸ good

theorem agrees_throw (cause : Fault) :
    Agrees small large Good (throw cause) (throw cause) := by
  have still : ∀ heap, Run.on (throw cause : Run α) heap = (.error cause, heap) := fun _ => rfl
  exact agrees_of_still still nofun

theorem agrees_demand {found : Option α} (cause : Fault)
    (good : ∀ value, found = some value → Good value) :
    Agrees small large Good (demand found cause) (demand found cause) := by
  cases found with
  | none => exact agrees_throw cause
  | some value => exact agrees_pure (good value rfl)

theorem Agrees.bind {first second : Run α} {next after : α → Run β}
    (start : Agrees small large Good first second)
    (rest : ∀ value, Good value → Agrees small large Fine (next value) (after value)) :
    Agrees small large Fine (first >>= next) (second >>= after) := by
  intro heap within
  rw [Run.on_bind, Run.on_bind]
  rcases start heap within with ⟨cause, missing, ends⟩ | ⟨same, stays, good⟩
  · refine .inl ⟨cause, missing, ?_⟩
    rcases ran : first.on heap with ⟨result, reached⟩
    rw [ran] at ends
    dsimp only at ends
    subst ends
    rfl
  · rw [same]
    rcases ran : first.on heap with ⟨cause | value, reached⟩
    · rw [ran] at stays
      exact .inr ⟨rfl, stays, nofun⟩
    · rw [ran] at stays good
      exact rest value (good value rfl) reached stays

theorem Agrees.map {first second : Run α} (start : Agrees small large Good first second)
    {change : α → β} (fine : ∀ value, Good value → Fine (change value)) :
    Agrees small large Fine (change <$> first) (change <$> second) := by
  rw [map_eq_pure_bind, map_eq_pure_bind]
  exact start.bind fun value good => agrees_pure (fine value good)

theorem agrees_objectAt (id : InstanceNo) :
    Agrees small large (fun object => Defined small object.cls) (objectAt id) (objectAt id) := by
  intro heap within
  have looked : Run.on (objectAt id) heap =
      Run.on (demand (heap.objects id) (.unknownInstance id)) heap := rfl
  rw [looked]
  cases there : heap.objects id with
  | none => exact .inr ⟨rfl, within, nofun⟩
  | some object =>
      refine .inr ⟨rfl, within, ?_⟩
      intro value same
      cases same
      exact within id object there

theorem Heap.Within.put {heap : Heap} (within : heap.Within small) (id : InstanceNo)
    {content : Option Object}
    (defined : ∀ object, content = some object → Defined small object.cls) :
    (heap.put id content).Within small := by
  intro other object there
  simp only [Heap.put] at there
  split at there
  · exact defined object there
  · exact within other object there

theorem agrees_put (id : InstanceNo) {content : Option Object}
    (defined : ∀ object, content = some object → Defined small object.cls) :
    Agrees small large (fun _ => True) (modify fun heap => heap.put id content)
      (modify fun heap => heap.put id content) :=
  fun _ within => .inr ⟨rfl, within.put id defined, fun _ _ => trivial⟩

end Agreement

/-! ## Operations on single objects -/

section Operations
variable {small large : List ClassDecl} (extension : Extends small large) (maxCallDepth : Nat)
include extension

/-- A class is looked up alike, or it is missing. -/
theorem agrees_demand_define? (name : String) :
    Agrees small large (fun decl => define? small name = some decl)
      (demand (define? small name) (.unknownClass name))
      (demand (define? large name) (.unknownClass name)) := by
  cases defined : define? small name with
  | some decl =>
      rw [extension.define? defined]
      exact agrees_pure rfl
  | none =>
      cases definedMore : define? large name with
      | none => exact agrees_throw _
      | some decl =>
          exact fun heap _ => .inl ⟨_, ⟨name, rfl, defined, decl, definedMore⟩, rfl⟩

theorem agrees_allocate (cls : String) (domain : Domain) :
    Agrees small large (fun _ => True) (Machine.allocate ⟨small, maxCallDepth⟩ cls domain)
      (Machine.allocate ⟨large, maxCallDepth⟩ cls domain) := by
  refine (agrees_demand_define? extension cls).bind fun decl defined => ?_
  have isDefined : Defined small decl.name := ⟨decl, name_of_define? defined ▸ defined⟩
  intro heap within
  have sameObject : fresh large decl.name domain = fresh small decl.name domain := by
    rw [fresh, fresh, extension.lineage isDefined]
  rw [sameObject]
  refine .inr ⟨rfl, ?_, fun _ _ => trivial⟩
  exact within.put heap.next fun object same => Option.some.inj same ▸ isDefined

theorem agrees_keyOf {view : String} (defined : Defined small view) (field : String) :
    Agrees small large (fun _ => True) (Machine.keyOf ⟨small, maxCallDepth⟩ view field)
      (Machine.keyOf ⟨large, maxCallDepth⟩ view field) := by
  unfold Machine.keyOf owner?
  rw [extension.lineage defined]
  exact (agrees_demand _ fun _ _ => trivial).bind fun _ _ => agrees_pure trivial

theorem agrees_readAs (object : Object) {view : String} (defined : Defined small view)
    (field : String) :
    Agrees small large (fun _ => True) (Machine.readAs ⟨small, maxCallDepth⟩ object view field)
      (Machine.readAs ⟨large, maxCallDepth⟩ object view field) :=
  (agrees_keyOf extension maxCallDepth defined field).bind fun _ _ => agrees_pure trivial

theorem agrees_read (id : InstanceNo) (field : String) :
    Agrees small large (fun _ => True) (Machine.read ⟨small, maxCallDepth⟩ id field)
      (Machine.read ⟨large, maxCallDepth⟩ id field) :=
  (agrees_objectAt id).bind fun object defined =>
    agrees_readAs extension maxCallDepth object defined field

theorem agrees_write (id : InstanceNo) (field : String) (value : Value) :
    Agrees small large (fun _ => True) (Machine.write ⟨small, maxCallDepth⟩ id field value)
      (Machine.write ⟨large, maxCallDepth⟩ id field value) := by
  refine (agrees_objectAt id).bind fun object defined => ?_
  refine (agrees_keyOf extension maxCallDepth defined field).bind fun key _ => ?_
  exact agrees_put id fun changed same => Option.some.inj same ▸ defined

/-- The part of a request that comes after the class which it names. -/
theorem agrees_below (id : InstanceNo) (view : ClassDecl) {α : Type} {Good : α → Prop}
    {next after : Object → Run α}
    (rest : ∀ object, Defined small object.cls →
      Agrees small large Good (next object) (after object)) :
    Agrees small large Good
      (do
        let object ← objectAt id
        if isBelow small object.cls view.name then next object
        else throw (.incompatibleStaticType object.cls view.name))
      (do
        let object ← objectAt id
        if isBelow large object.cls view.name then after object
        else throw (.incompatibleStaticType object.cls view.name)) := by
  refine (agrees_objectAt id).bind fun object defined => ?_
  unfold isBelow
  rw [extension.lineage defined]
  split
  · exact rest object defined
  · exact agrees_throw _

theorem agrees_readDeclared (id : InstanceNo) (declaring field : String) :
    Agrees small large (fun _ => True)
      (Machine.readDeclared ⟨small, maxCallDepth⟩ id declaring field)
      (Machine.readDeclared ⟨large, maxCallDepth⟩ id declaring field) := by
  refine (agrees_demand_define? extension declaring).bind fun view defined => ?_
  have isDefined : Defined small view.name := ⟨view, name_of_define? defined ▸ defined⟩
  exact agrees_below extension id view fun object _ =>
    agrees_readAs extension maxCallDepth object isDefined field

theorem agrees_reference (id : InstanceNo) (staticType : String) :
    Agrees small large (fun reference => Defined small reference.staticType)
      (Machine.reference ⟨small, maxCallDepth⟩ id staticType)
      (Machine.reference ⟨large, maxCallDepth⟩ id staticType) := by
  refine (agrees_demand_define? extension staticType).bind fun view defined => ?_
  have isDefined : Defined small view.name := ⟨view, name_of_define? defined ▸ defined⟩
  exact agrees_below extension id view fun _ _ => agrees_pure isDefined

/-- A method that is found belongs to a class that is defined. -/
def Owned (decls : List ClassDecl) (found : Found) : Prop :=
  define? decls found.owner.name = some found.owner

theorem agrees_resolve {cls : String} (defined : Defined small cls) (signature : Signature) :
    Agrees small large (Owned small) (Machine.resolve ⟨small, maxCallDepth⟩ cls signature)
      (Machine.resolve ⟨large, maxCallDepth⟩ cls signature) := by
  unfold Machine.resolve method?
  rw [extension.lineage defined]
  refine agrees_demand _ fun found isFirst => ?_
  obtain ⟨owner, inLine, isOwn⟩ := List.exists_of_findSome?_eq_some isFirst
  obtain ⟨method, _, rfl⟩ := Option.map_eq_some_iff.mp isOwn
  exact define?_of_mem_climb inLine

end Operations

/-! ## Calls -/

/-- Two ways to run methods that agree on methods of the smaller list. -/
def EntersAlike (small large : List ClassDecl) (enter other : Enter) : Prop :=
  ∀ receiver found args, Owned small found →
    Agrees small large (fun _ => True) (enter receiver found args) (other receiver found args)

section Calls
variable {small large : List ClassDecl} (extension : Extends small large) (maxCallDepth : Nat)
  {enter other : Enter} (alike : EntersAlike small large enter other)
include extension alike

theorem agrees_dispatch (receiver : InstanceNo) (signature : Signature) (args : List Value) :
    Agrees small large (fun _ => True)
      (Machine.dispatch ⟨small, maxCallDepth⟩ enter receiver signature args)
      (Machine.dispatch ⟨large, maxCallDepth⟩ other receiver signature args) :=
  (agrees_objectAt receiver).bind fun _ defined =>
    (agrees_resolve extension maxCallDepth defined signature).bind fun found owned =>
      alike receiver found args owned

variable (receiver : InstanceNo) {found : Found} (owned : Owned small found)

omit alike in
theorem agrees_allocateIn (cls : String) (domain : Option Domain) :
    Agrees small large (fun _ => True)
      (Frame.allocate ⟨⟨small, maxCallDepth⟩, enter, receiver, found⟩ cls domain)
      (Frame.allocate ⟨⟨large, maxCallDepth⟩, other, receiver, found⟩ cls domain) := by
  cases domain with
  | some domain => exact agrees_allocate extension maxCallDepth cls domain
  | none =>
      exact (agrees_objectAt receiver).bind fun object _ =>
        agrees_allocate extension maxCallDepth cls object.domain

include owned

theorem agrees_invokeSuper (method : String) (args : List Value) :
    Agrees small large (fun _ => True)
      (Frame.invokeSuper ⟨⟨small, maxCallDepth⟩, enter, receiver, found⟩ method args)
      (Frame.invokeSuper ⟨⟨large, maxCallDepth⟩, other, receiver, found⟩ method args) := by
  have inherits : Agrees small large (Owned small)
      (Frame.inherited ⟨⟨small, maxCallDepth⟩, enter, receiver, found⟩ ⟨method, args.length⟩)
      (Frame.inherited ⟨⟨large, maxCallDepth⟩, other, receiver, found⟩ ⟨method, args.length⟩) :=
    (agrees_demand _ fun _ named => extension.parent owned named).bind fun _ defined =>
      agrees_resolve extension maxCallDepth defined _
  refine inherits.bind fun inherited ownedAbove => ?_
  refine (agrees_objectAt receiver).bind fun _ _ => ?_
  exact alike receiver inherited args ownedAbove

variable (args : List Value)

set_option linter.unusedSectionVars false

mutual

theorem agrees_eval : (expr : Expr) → Agrees small large (fun _ => True)
    (Frame.eval ⟨⟨small, maxCallDepth⟩, enter, receiver, found⟩ args expr)
    (Frame.eval ⟨⟨large, maxCallDepth⟩, other, receiver, found⟩ args expr)
  | .lit value => by
      rw [Frame.eval, Frame.eval]
      exact agrees_pure trivial
  | .this => by
      rw [Frame.eval, Frame.eval]
      exact agrees_pure trivial
  | .arg index => by
      rw [Frame.eval, Frame.eval]
      exact agrees_demand _ fun _ _ => trivial
  | .new cls domain => by
      rw [Frame.eval, Frame.eval]
      exact (agrees_allocateIn extension maxCallDepth receiver cls domain).bind fun _ _ =>
        agrees_pure trivial
  | .get target field => by
      rw [Frame.eval, Frame.eval]
      refine (agrees_eval target).bind fun value _ => ?_
      refine (agrees_demand _ fun _ _ => trivial).bind fun object _ => ?_
      exact agrees_read extension maxCallDepth object field
  | .set target field value => by
      rw [Frame.eval, Frame.eval]
      refine (agrees_eval target).bind fun targetValue _ => ?_
      refine (agrees_demand _ fun _ _ => trivial).bind fun object _ => ?_
      refine (agrees_eval value).bind fun stored _ => ?_
      refine (agrees_write extension maxCallDepth object field stored).bind fun _ _ => ?_
      exact agrees_pure trivial
  | .invoke target method operands => by
      rw [Frame.eval, Frame.eval]
      refine (agrees_eval target).bind fun value _ => ?_
      refine (agrees_demand _ fun _ _ => trivial).bind fun object _ => ?_
      refine (agrees_evalAll operands).bind fun values _ => ?_
      exact agrees_dispatch extension maxCallDepth alike object _ values
  | .super method operands => by
      rw [Frame.eval, Frame.eval]
      refine (agrees_evalAll operands).bind fun values _ => ?_
      exact agrees_invokeSuper extension maxCallDepth alike receiver owned method values
  | .seq steps => by
      rw [Frame.eval, Frame.eval]
      exact agrees_evalLast .nil steps

theorem agrees_evalAll : (exprs : List Expr) → Agrees small large (fun _ => True)
    (Frame.evalAll ⟨⟨small, maxCallDepth⟩, enter, receiver, found⟩ args exprs)
    (Frame.evalAll ⟨⟨large, maxCallDepth⟩, other, receiver, found⟩ args exprs)
  | [] => by
      rw [Frame.evalAll, Frame.evalAll]
      exact agrees_pure trivial
  | expr :: rest => by
      rw [Frame.evalAll, Frame.evalAll]
      refine (agrees_eval expr).bind fun value _ => ?_
      refine (agrees_evalAll rest).bind fun values _ => ?_
      exact agrees_pure trivial

theorem agrees_evalLast (last : Value) : (exprs : List Expr) →
    Agrees small large (fun _ => True)
      (Frame.evalLast ⟨⟨small, maxCallDepth⟩, enter, receiver, found⟩ args last exprs)
      (Frame.evalLast ⟨⟨large, maxCallDepth⟩, other, receiver, found⟩ args last exprs)
  | [] => by
      rw [Frame.evalLast, Frame.evalLast]
      exact agrees_pure trivial
  | expr :: rest => by
      rw [Frame.evalLast, Frame.evalLast]
      refine (agrees_eval expr).bind fun value _ => ?_
      exact agrees_evalLast value rest

end

end Calls

section Runs
variable {small large : List ClassDecl} (extension : Extends small large) (maxCallDepth : Nat)
include extension

/-- Methods of the smaller list run alike, however deep their calls are nested. -/
theorem agrees_run (remaining : Nat) :
    EntersAlike small large (Machine.run ⟨small, maxCallDepth⟩ remaining)
      (Machine.run ⟨large, maxCallDepth⟩ remaining) := by
  induction remaining with
  | zero => exact fun _ _ _ _ => agrees_throw _
  | succ remaining ih =>
      intro receiver found args owned
      unfold Machine.run
      split
      · exact agrees_eval extension maxCallDepth ih receiver owned args _
      · exact agrees_throw _

theorem agrees_invoke {reference : Reference} (defined : Defined small reference.staticType)
    (signature : Signature) (args : List Value) :
    Agrees small large (fun _ => True)
      (Machine.invoke ⟨small, maxCallDepth⟩ reference signature args)
      (Machine.invoke ⟨large, maxCallDepth⟩ reference signature args) :=
  (agrees_resolve extension maxCallDepth defined signature).bind fun _ _ =>
    agrees_dispatch extension maxCallDepth (agrees_run extension maxCallDepth _) _ signature args

end Runs

end Naive

end Lineage
