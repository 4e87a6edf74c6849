import Lineage.Proofs.Call.Forest

/-!
# The frames of a call

What holds of every method that runs within a call of the host, however deep: its depth
is within the limit, its receiver is there for as long as it runs and stays of the same
exact class, and its method is declared by that class or by one of its ancestors
(`frames_stand`).
-/

set_option autoImplicit false

namespace Lineage

open Relation (ReflTransGen)

/-- The activation is the first one of a call of the host or is started from there on. -/
def Activation.Occurs (dispatcher : Dispatcher) (reference : Reference) (signature : Signature)
    (args : List Value) (store : Store) (running : Activation) : Prop :=
  ∃ first : Activation, first.Begins dispatcher reference signature args store ∧
    ReflTransGen (Activation.Starts dispatcher) first running

namespace Activation

variable {dispatcher : Dispatcher} {decls : List ClassDecl} {running : Activation}
  {reference : Reference} {signature : Signature} {args : List Value} {store : Store}
  (flat : dispatcher.hierarchy.Flat decls)
include flat

theorem Occurs.stands (occurs : running.Occurs dispatcher reference signature args store) :
    running.Stands dispatcher := by
  obtain ⟨first, begins, reached⟩ := occurs
  exact (stands_of_reached flat (stands_of_begins flat begins) reached).1

/-- Every dispatch that is reported is that of an activation. -/
theorem exists_occurs {dispatch : Dispatch}
    (reported : dispatch ∈ (dispatcher.invoke reference signature args store).dispatches) :
    ∃ running : Activation, running.Occurs dispatcher reference signature args store ∧
      running.dispatch = dispatch := by
  obtain silent | ⟨first, below, begins, forest, dispatches, _⟩ :=
    invoke_traces flat reference signature args store
  · rw [silent] at reported
    cases reported
  · rw [dispatches] at reported
    obtain ⟨running, isThere, same⟩ := List.mem_map.mp reported
    refine ⟨running, ⟨first, begins, ?_⟩, same⟩
    rcases List.mem_cons.mp isThere with rfl | isBelow
    · exact .refl
    · exact forest.reached running isBelow

end Activation

/-- Whatever the limit is and whatever bodies do, every method that runs within a call has
a depth below the limit, which is counted without overflow; its receiver is there and of
the same exact class, which is of the hierarchy, at every point that it or a method called
from it comes to and at its end, so its domain and its class can be asked for; and its
method is declared by that class or one of its ancestors.  There is such a method for
every dispatch that the call reports. -/
theorem Dispatcher.frames_stand {hierarchy : Hierarchy} (isSealed : hierarchy.Sealed)
    (options : Options) (bounded : options.maxCallDepth < UInt64.size) (reference : Reference)
    (signature : Signature) (args : List Value) (store : Store) :
    let dispatcher : Dispatcher := ⟨hierarchy, options⟩
    let Occurs := Activation.Occurs dispatcher reference signature args store
    (∀ dispatch ∈ (dispatcher.invoke reference signature args store).dispatches,
      ∃ running, Occurs running ∧ running.dispatch = dispatch) ∧
    ∀ running, Occurs running →
      running.depth < options.maxCallDepth ∧ running.depth + 1 < UInt64.size ∧
      hierarchy.classes.find? running.exact.id = some running.exact ∧
      (∃ chain, hierarchy.classes.ancestors running.exact.id = .ok chain ∧
        running.owner ∈ chain) ∧
      running.method ∈ running.owner.methods ∧
      running.Attended dispatcher (running.effect dispatcher).store ∧
      ∀ inner program moment, ReflTransGen (Activation.Starts dispatcher) running inner →
        inner.Reaches dispatcher program moment → running.Attended dispatcher moment := by
  intro dispatcher Occurs
  obtain ⟨decls, flat⟩ := isSealed.exists_flat
  refine ⟨fun dispatch reported => Activation.exists_occurs flat reported, ?_⟩
  intro running occurs
  have stands := occurs.stands flat
  obtain ⟨before, after, chained⟩ := stands.above
  obtain ⟨frames, traces⟩ := Activation.exists_traces flat stands
  have within := stands.entered.within
  refine ⟨within, Nat.lt_of_le_of_lt within bounded, stands.entered.exactFound,
    ⟨_, chained.ancestors_eq flat.holds stands.entered.exactFound, ?_⟩, stands.declared,
    stands.entered.attended flat traces.grown, ?_⟩
  · exact List.mem_append_right _ List.mem_cons_self
  · intro inner program moment reached reaches
    have lasts := (Activation.stands_of_reached flat stands reached).2
    exact stands.entered.attended flat (lasts.trans (reaches.lasts flat))

/-- A node that grows links its leaf, and the leaf goes to its parent: that method is the
third of the call, runs on the leaf and is declared by the class of the node. -/
theorem grow_frames :
    let dispatcher : Dispatcher := ⟨sampleHierarchy, { maxCallDepth := UInt64.size - 1 }⟩
    let grow := dispatcher.invoke ⟨1, ⟨1, 0⟩⟩ ⟨"grow", 0⟩ [] sampleStore
    let inherited : Dispatch := ⟨4, "Leaf", ⟨"link", 1⟩, "Node", 2⟩
    sampleHierarchy.Sealed ∧ UInt64.size - 1 < UInt64.size ∧
      grow.dispatches = [⟨1, "Node", ⟨"grow", 0⟩, "Node", 0⟩,
        ⟨4, "Leaf", ⟨"link", 1⟩, "Leaf", 1⟩, inherited] ∧
      ∃ running : Activation,
        running.Occurs dispatcher ⟨1, ⟨1, 0⟩⟩ ⟨"grow", 0⟩ [] sampleStore ∧
        running.dispatch = inherited ∧ running.depth < UInt64.size - 1 ∧
        (∃ chain, sampleHierarchy.classes.ancestors running.exact.id = .ok chain ∧
          running.owner ∈ chain) ∧
        running.Attended dispatcher (running.effect dispatcher).store := by
  intro dispatcher grow inherited
  have dispatches : grow.dispatches = [⟨1, "Node", ⟨"grow", 0⟩, "Node", 0⟩,
      ⟨4, "Leaf", ⟨"link", 1⟩, "Leaf", 1⟩, inherited] := by decide +kernel
  have bounded : UInt64.size - 1 < UInt64.size := by decide
  obtain ⟨reported, stand⟩ := Dispatcher.frames_stand sampleHierarchy_sealed
    { maxCallDepth := UInt64.size - 1 } bounded ⟨1, ⟨1, 0⟩⟩ ⟨"grow", 0⟩ [] sampleStore
  obtain ⟨running, occurs, same⟩ := reported inherited (by
    change inherited ∈ grow.dispatches
    simp [dispatches])
  obtain ⟨within, _, _, above, _, attended, _⟩ := stand running occurs
  exact ⟨sampleHierarchy_sealed, bounded, dispatches, running, occurs, same, within, above,
    attended⟩

end Lineage
