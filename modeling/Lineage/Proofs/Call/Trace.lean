import Lineage.Proofs.Call.Forest
import Lineage.Proofs.Call.Levels

/-!
# The trace of a call

The dispatches that a call reports, read from the front, tell its tree of activations:
the depth of a dispatch says that its caller is the last one before it that is one level
less deep (`Forest.traced`).  So a trace is well formed (`invoke_trace`): it begins with
the call of the host, depths grow by one at most, every owner is an ancestor-or-self of
the exact class, and it is the one that a virtual call or a call to the parent gives.
-/

set_option autoImplicit false

namespace Lineage

open Relation (ReflTransGen)

namespace Activation

/-- After the earlier activations the next one is at most one level deeper than the last
of them, and the last of them that is one level less deep starts it. -/
structure Continues (dispatcher : Dispatcher) (earlier : List Activation)
    (called : Activation) : Prop where
  previous : ∃ previous, earlier.getLast? = some previous ∧ called.depth ≤ previous.depth + 1
  caller : ∃ caller : Activation, earlier.findRev? (·.depth = caller.depth) = some caller ∧
    caller.Starts dispatcher called

/-- After the earlier activations the later ones continue them one by one. -/
inductive Traced (dispatcher : Dispatcher) : List Activation → List Activation → Prop where
  | nil (earlier : List Activation) : Traced dispatcher earlier []
  | cons {earlier later : List Activation} {called : Activation}
      (continues : Continues dispatcher earlier called)
      (rest : Traced dispatcher (earlier ++ [called]) later) :
      Traced dispatcher earlier (called :: later)

/-- After the earlier activations what the running one starts comes next. -/
structure Open (earlier : List Activation) (running : Activation) : Prop where
  last : earlier.findRev? (·.depth = running.depth) = some running
  within : ∃ previous, earlier.getLast? = some previous ∧ running.depth ≤ previous.depth

variable {dispatcher : Dispatcher} {earlier frames later : List Activation}
  {running called : Activation}

theorem Traced.append (first : Traced dispatcher earlier frames)
    (second : Traced dispatcher (earlier ++ frames) later) :
    Traced dispatcher earlier (frames ++ later) := by
  induction first with
  | nil earlier =>
      rw [List.append_nil] at second
      exact second
  | cons continues _ ih =>
      rw [List.append_cons] at second
      exact .cons continues (ih second)

theorem Traced.continues {before : List Activation}
    (traced : Traced dispatcher earlier (before ++ called :: later)) :
    Continues dispatcher (earlier ++ before) called := by
  induction before generalizing earlier with
  | nil =>
      rw [List.append_nil]
      cases traced with
      | cons continues _ => exact continues
  | cons next rest ih =>
      rw [List.append_cons]
      cases traced with
      | cons _ traced => exact ih traced

theorem findRev?_append_of_ne {depth : Nat} (differs : ∀ frame ∈ later, frame.depth ≠ depth) :
    (earlier ++ later).findRev? (·.depth = depth) = earlier.findRev? (·.depth = depth) := by
  have nothing : later.reverse.find? (·.depth = depth) = none := by
    rw [List.find?_eq_none]
    intro frame isLater same
    exact differs frame (List.mem_reverse.mp isLater) (of_decide_eq_true same)
  rw [List.findRev?_eq_find?_reverse, List.reverse_append, List.find?_append, nothing,
    Option.none_or, List.findRev?_eq_find?_reverse]

theorem open_concat (earlier : List Activation) (running : Activation) :
    Open (earlier ++ [running]) running where
  last := by
    rw [List.findRev?_eq_find?_reverse, List.reverse_concat]
    exact List.find?_cons_of_pos (decide_eq_true rfl)
  within := ⟨running, List.getLast?_concat, Nat.le_refl _⟩

theorem Open.append (isOpen : Open earlier running)
    (deeper : ∀ frame ∈ later, running.depth < frame.depth) : Open (earlier ++ later) running where
  last := by
    rw [findRev?_append_of_ne fun frame isLater => Nat.ne_of_gt (deeper frame isLater),
      isOpen.last]
  within := by
    rw [List.getLast?_append]
    cases isLast : later.getLast? with
    | none => exact isOpen.within
    | some previous =>
        exact ⟨previous, rfl, Nat.le_of_lt (deeper previous (List.mem_of_getLast? isLast))⟩

theorem Forest.deeper (forest : Forest dispatcher running frames) :
    ∀ frame ∈ frames, running.depth < frame.depth := by
  induction forest with
  | nil running => exact List.forall_mem_nil _
  | cons starts _ _ below later =>
      have next := starts.deeper
      refine List.forall_mem_cons.mpr ⟨by omega, List.forall_mem_append.mpr ⟨?_, later⟩⟩
      intro frame isBelow
      have deep := below frame isBelow
      omega

/-- The activations of a forest continue one another from where the first one is open. -/
theorem Forest.traced (forest : Forest dispatcher running frames)
    (isOpen : Open earlier running) : Traced dispatcher earlier frames := by
  induction forest generalizing earlier with
  | nil running => exact .nil earlier
  | @cons running called below rest starts inner after ihInner ihAfter =>
      obtain ⟨previous, isLast, within⟩ := isOpen.within
      have next := starts.deeper
      refine .cons ⟨⟨previous, isLast, by omega⟩, running, isOpen.last, starts⟩ ?_
      refine (ihInner (open_concat earlier called)).append (ihAfter ?_)
      rw [List.append_assoc]
      refine isOpen.append (List.forall_mem_cons.mpr ⟨by omega, fun frame isBelow => ?_⟩)
      have deep := inner.deeper frame isBelow
      omega

end Activation

/-! ## Dispatches -/

namespace Dispatch

/-- Where the dispatch stands: it is the call of the host, or it is nested, at most one
level deeper than the one just before it. -/
structure Follows (target : InstanceNo) (limit : Nat) (earlier : List Dispatch)
    (called : Dispatch) : Prop where
  first : earlier = [] → called.depth = 0 ∧ called.receiver = target
  next : ∀ previous, earlier.getLast? = some previous →
    1 ≤ called.depth ∧ called.depth ≤ previous.depth + 1
  within : called.depth < limit

/-- The class that is reported is the exact class of the receiver, and the owner is that
class or one of its ancestors and declares the method. -/
structure Fits (classes : ClassTable) (store : Store) (called : Dispatch) (exact owner : Class)
    (chain : List Class) : Prop where
  live : ∃ inst, store.find? called.receiver = some inst ∧ inst.cls = exact.id
  found : classes.find? exact.id = some exact
  named : exact.name = called.cls
  ancestors : classes.ancestors exact.id = .ok chain
  above : owner ∈ chain
  ownerNamed : owner.name = called.owner
  declares : owner.declares called.method = true

/-- The owner is the nearest class of the chain that declares the method or, on the receiver
of the caller, the nearest one strictly above the owner of the caller. -/
def Nearest (caller called : Dispatch) (owner : Class) (chain : List Class) : Prop :=
  chain.find? (·.declares called.method) = some owner ∨
    caller.receiver = called.receiver ∧
      ∃ below calling above, chain = below ++ calling :: above ∧ calling.name = caller.owner ∧
        above.find? (·.declares called.method) = some owner

end Dispatch

namespace Activation

variable {dispatcher : Dispatcher} {decls : List ClassDecl} {running caller called : Activation}

theorem findRev?_map_dispatch (depth : Nat) (earlier : List Activation) :
    (earlier.map dispatch).findRev? (·.depth = depth) =
      (earlier.findRev? (·.depth = depth)).map dispatch := by
  rw [List.findRev?_eq_find?_reverse, List.findRev?_eq_find?_reverse, ← List.map_reverse,
    List.find?_map]
  rfl

variable (flat : dispatcher.hierarchy.Flat decls)
include flat

theorem Stands.fits (stands : running.Stands dispatcher) {store : Store}
    (lasts : running.start.Lasts store) :
    ∃ chain, dispatcher.hierarchy.classes.Chain running.exact chain ∧
      running.dispatch.Fits dispatcher.hierarchy.classes store running.exact running.owner
        chain := by
  obtain ⟨before, after, chained⟩ := stands.above
  obtain ⟨inst, live, isExact, _⟩ := (stands.entered.attended flat lasts).live
  exact ⟨_, chained, {
    live := ⟨inst, live, isExact⟩
    found := stands.entered.exactFound
    named := rfl
    ancestors := chained.ancestors_eq flat.holds stands.entered.exactFound
    above := List.mem_append_right _ List.mem_cons_self
    ownerNamed := rfl
    declares := List.any_eq_true.mpr ⟨running.method, stands.declared, decide_eq_true rfl⟩ }⟩

theorem nearest_of_starts (stands : caller.Stands dispatcher)
    (starts : caller.Starts dispatcher called) {chain : List Class}
    (chained : dispatcher.hierarchy.classes.Chain called.exact chain) :
    Dispatch.Nearest caller.dispatch called.dispatch called.owner chain := by
  obtain ⟨_, provides | ⟨same, sameExact, parent, upper, inherits, upperFound, provides⟩, _⟩ :=
    stands_of_starts flat stands starts
  · exact .inl (provides.find?_eq chained)
  · obtain ⟨before, after, above⟩ := stands.above
    obtain ⟨found, rest, sameFound, shape⟩ := above.eq_cons_of_parent inherits
    cases Option.some.inj (sameFound.symm.trans upperFound)
    rw [sameExact] at chained
    refine .inr ⟨same.symm, before, caller.owner, after, chained.unique above, rfl, ?_⟩
    rw [shape, List.append_cons] at above
    rw [shape]
    exact provides.find?_eq above.of_append

/-- Each report of an activation of the host and of those that it starts has its place, and
its caller is the last one before it that is one level less deep. -/
theorem follows_of_forest {reference : Reference} {signature : Signature} {args : List Value}
    {store : Store} {first : Activation} {below before after : List Activation}
    (begins : first.Begins dispatcher reference signature args store)
    (forest : Forest dispatcher first below) (split : first :: below = before ++ called :: after) :
    called.Stands dispatcher ∧
      called.dispatch.Follows reference.target dispatcher.options.maxCallDepth
        (before.map dispatch) ∧
      ∀ depth, called.dispatch.depth = depth + 1 →
        ∃ caller : Activation, caller.Stands dispatcher ∧ caller.Starts dispatcher called ∧
          (before.map dispatch).findRev? (·.depth = depth) = some caller.dispatch := by
  have firstStands := stands_of_begins flat begins
  have stand : ∀ frame ∈ first :: below, frame.Stands dispatcher :=
    List.forall_mem_cons.mpr ⟨firstStands, fun frame isBelow =>
      (stands_of_reached flat firstStands (forest.reached frame isBelow)).1⟩
  have stands : called.Stands dispatcher := stand called (by simp [split])
  have within : called.dispatch.depth < dispatcher.options.maxCallDepth := stands.entered.within
  rcases before with _ | ⟨root, before⟩
  · obtain ⟨rfl, rfl⟩ := List.cons.inj split
    have outermost : first.dispatch.depth = 0 := begins.outermost
    refine ⟨stands, ⟨fun _ => ⟨outermost, begins.receiver⟩, ?_, within⟩, ?_⟩
    · intro previous isLast
      cases isLast
    · intro depth isNested
      omega
  · obtain ⟨rfl, rfl⟩ := List.cons.inj split
    obtain ⟨⟨previous, isLast, bound⟩, caller, isCaller, starts⟩ :=
      (forest.traced (open_concat [] first)).continues
    have nested : called.depth = caller.depth + 1 := starts.deeper
    change (first :: before).getLast? = some previous at isLast
    change (first :: before).findRev? _ = some caller at isCaller
    refine ⟨stands, ⟨nofun, ?_, within⟩, ?_⟩
    · intro reported isPrevious
      rw [List.getLast?_map, isLast] at isPrevious
      cases isPrevious
      change 1 ≤ called.depth ∧ called.depth ≤ previous.depth + 1
      exact ⟨by omega, bound⟩
    · intro depth isNested
      obtain rfl : caller.depth = depth := Nat.succ.inj (nested.symm.trans isNested)
      have isEarlier : caller ∈ first :: before := by
        rw [List.findRev?_eq_find?_reverse] at isCaller
        exact List.mem_reverse.mp (List.mem_of_find?_eq_some isCaller)
      refine ⟨caller, stand caller ?_, starts, by rw [findRev?_map_dispatch, isCaller]; rfl⟩
      rcases List.mem_cons.mp isEarlier with rfl | isBefore
      · exact List.mem_cons_self
      · exact List.mem_cons_of_mem _ (List.mem_append_left _ isBefore)

end Activation

/-- The dispatches that a call reports, whether it succeeds or fails, are a well-formed
tree of calls: the first is that of the host; the others are nested, each at most one level
deeper than the one before it and all within the limit; the class is the exact class of
the receiver and the owner that class or an ancestor that declares the method; and a nested
one has the nearest declaration from the exact class or, on the receiver of its caller,
from strictly above the owner of the caller, which is the last dispatch before it that is
one level less deep.
The option to trace calls changes the level of dispatches and nothing else. -/
theorem Dispatcher.invoke_trace {hierarchy : Hierarchy} (isSealed : hierarchy.Sealed)
    (options : Options) (reference : Reference) (signature : Signature) (args : List Value)
    (store : Store) :
    let run := invoke ⟨hierarchy, options⟩ reference signature args store
    (∀ earlier called later, run.dispatches = earlier ++ called :: later →
      called.Follows reference.target options.maxCallDepth earlier ∧
      ∃ exact owner chain, called.Fits hierarchy.classes run.store exact owner chain ∧
        ∀ depth, called.depth = depth + 1 →
          ∃ caller, earlier.findRev? (·.depth = depth) = some caller ∧
            Dispatch.Nearest caller called owner chain) ∧
    ∀ traceCalls : Bool,
      let other := invoke ⟨hierarchy, { options with traceCalls }⟩ reference signature args store
      other.result = run.result ∧ other.store = run.store ∧
        other.events = run.events.map (Event.atLevel (if traceCalls then .debug else .trace)) := by
  intro run
  obtain ⟨decls, flat⟩ := isSealed.exists_flat
  have flatHere : (Dispatcher.mk hierarchy options).hierarchy.Flat decls := flat
  refine ⟨?_, ?_⟩
  · intro earlier called later split
    obtain silent | ⟨first, below, begins, forest, dispatches, lasts⟩ :=
      Activation.invoke_traces flatHere reference signature args store
    · exact absurd (silent.symm.trans split) (by simp)
    · obtain ⟨before, rest, frames, rfl, more⟩ :=
        List.map_eq_append_iff.mp (dispatches.symm.trans split)
      obtain ⟨running, after, rfl, rfl, rfl⟩ := List.map_eq_cons_iff.mp more
      obtain ⟨stands, follows, calledFrom⟩ :=
        Activation.follows_of_forest flatHere begins forest frames
      obtain ⟨chain, chained, fits⟩ := stands.fits flatHere (lasts running (by simp [frames]))
      refine ⟨follows, running.exact, running.owner, chain, fits, ?_⟩
      intro depth isNested
      obtain ⟨caller, callerStands, starts, isLast⟩ := calledFrom depth isNested
      exact ⟨caller.dispatch, isLast,
        Activation.nearest_of_starts flatHere callerStands starts chained⟩
  · intro traceCalls other
    have same : other = run.atLevel _ :=
      invoke_tracing flatHere traceCalls reference signature args store
    rw [same]
    exact ⟨rfl, rfl, rfl⟩

/-- A node that grows links its leaf, and the leaf goes to its parent: the caller of the
third method is the second, on the same receiver, and the owner is above that of the
caller.  With the option set, the same is done. -/
theorem grow_trace :
    let grow := Dispatcher.invoke ⟨sampleHierarchy, {}⟩ ⟨1, ⟨1, 0⟩⟩ ⟨"grow", 0⟩ [] sampleStore
    let traced := Dispatcher.invoke ⟨sampleHierarchy, { traceCalls := true }⟩ ⟨1, ⟨1, 0⟩⟩
      ⟨"grow", 0⟩ [] sampleStore
    let linked : Dispatch := ⟨4, "Leaf", ⟨"link", 1⟩, "Leaf", 1⟩
    let inherited : Dispatch := ⟨4, "Leaf", ⟨"link", 1⟩, "Node", 2⟩
    sampleHierarchy.Sealed ∧
      grow.dispatches = [⟨1, "Node", ⟨"grow", 0⟩, "Node", 0⟩, linked] ++ inherited :: [] ∧
      (∃ exact owner chain,
        inherited.Fits sampleHierarchy.classes grow.store exact owner chain ∧
          Dispatch.Nearest linked inherited owner chain) ∧
      traced.store = grow.store := by
  intro grow traced linked inherited
  have split : grow.dispatches =
      [⟨1, "Node", ⟨"grow", 0⟩, "Node", 0⟩, linked] ++ inherited :: [] := by decide +kernel
  obtain ⟨formed, tracing⟩ := Dispatcher.invoke_trace sampleHierarchy_sealed {} ⟨1, ⟨1, 0⟩⟩
    ⟨"grow", 0⟩ [] sampleStore
  obtain ⟨_, exact, owner, chain, fits, nested⟩ := formed _ _ _ split
  obtain ⟨caller, isLast, nearest⟩ := nested 1 rfl
  cases Option.some.inj (isLast.symm.trans (rfl : _ = some linked))
  exact ⟨sampleHierarchy_sealed, split, ⟨exact, owner, chain, fits, nearest⟩, (tracing true).2.1⟩

end Lineage
