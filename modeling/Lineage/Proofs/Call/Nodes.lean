import Lineage.Proofs.Call.Steps

/-!
# What occurs in bodies

Expressions do things through the nodes that occur in them: they allocate at `new` nodes,
read at `get` nodes, and so on.  `Expr.nodes` lists these nodes and `Hierarchy.Contains`
says which occur in some body of a hierarchy.  A property of actions that sequencing keeps
and that holds of what the present nodes do holds of whole expressions in which no other
nodes occur (`Frame.Sustains.eval`).
-/

set_option autoImplicit false

namespace Lineage

/-- A node of an expression that asks something of the frame. -/
inductive Expr.Node where
  | new (cls : String) (domain : Option Domain)
  | get (field : String)
  | set (field : String)
  | invoke (method : String)
  | super (method : String)
  deriving DecidableEq, Repr

namespace Expr

mutual

/-- The nodes that occur in an expression, in the order of evaluation. -/
def nodes : Expr → List Node
  | .lit _ => []
  | .this => []
  | .arg _ => []
  | .new cls domain => [.new cls domain]
  | .get target field => nodes target ++ [.get field]
  | .set target field value => nodes target ++ nodes value ++ [.set field]
  | .invoke target method operands => nodes target ++ nodesAll operands ++ [.invoke method]
  | .super method operands => nodesAll operands ++ [.super method]
  | .seq steps => nodesAll steps

def nodesAll : List Expr → List Node
  | [] => []
  | expr :: rest => nodes expr ++ nodesAll rest

end

end Expr

/-- What a body of the host does is not seen in it. -/
def Body.nodes : Body → List Expr.Node
  | .expr body => body.nodes
  | .native _ => []

namespace Hierarchy

/-- The node occurs in some method body of the hierarchy. -/
def Contains (hierarchy : Hierarchy) (node : Expr.Node) : Prop :=
  ∃ cls ∈ hierarchy.classes.classes.toList, ∃ method ∈ cls.methods, node ∈ method.body.nodes

instance (hierarchy : Hierarchy) (node : Expr.Node) : Decidable (hierarchy.Contains node) :=
  inferInstanceAs (Decidable (∃ cls ∈ hierarchy.classes.classes.toList,
    ∃ method ∈ cls.methods, node ∈ method.body.nodes))

theorem contains_of_find? {hierarchy : Hierarchy} {id : ClassId} {cls : Class}
    (found : hierarchy.classes.find? id = some cls) {method : Method}
    (declared : method ∈ cls.methods) {node : Expr.Node} (occurs : node ∈ method.body.nodes) :
    hierarchy.Contains node := by
  have stored := ((hierarchy.classes.find?_eq_some_iff id cls).mp found).2
  exact ⟨cls, List.mem_of_getElem? (Array.getElem?_toList.trans stored), method, declared, occurs⟩

end Hierarchy

/-- The faults of evaluation itself. -/
inductive Fault.OfEvaluation : Fault → Prop where
  | notAnObject (found : Kind) : OfEvaluation (.notAnObject found)
  | argumentOutOfRange (index : Nat) (signature : Signature) :
      OfEvaluation (.argumentOutOfRange index signature)

namespace Frame

/-- Sequencing keeps the property, and it holds of what the frame does at present nodes. -/
structure Sustains (P : ∀ {α : Type}, Action α → Prop) (present : Expr.Node → Prop)
    (frame : Frame) : Prop where
  pure : ∀ {α : Type} (value : α), P (pure value)
  raise : ∀ {α : Type} {cause : Fault}, cause.OfEvaluation → P (Action.raise cause : Action α)
  bind : ∀ {α β : Type} {action : Action α} {next : α → Action β}, P action →
    (∀ value, P (next value)) → P (action >>= next)
  new : ∀ {cls domain}, present (.new cls domain) → P (frame.allocate cls domain)
  get : ∀ {field}, present (.get field) → ∀ target, P (frame.dispatcher.read target field)
  set : ∀ {field}, present (.set field) → ∀ target value,
    P (frame.dispatcher.write target field value)
  invoke : ∀ {method}, present (.invoke method) → ∀ target args,
    P (frame.invoke target method args)
  super : ∀ {method}, present (.super method) → ∀ args, P (frame.invokeSuper method args)

namespace Sustains

variable {P : ∀ {α : Type}, Action α → Prop} {present : Expr.Node → Prop} {frame : Frame}
  (sustains : Sustains P present frame)
include sustains

theorem objectOf (value : Value) : P (Frame.objectOf value) := by
  unfold Frame.objectOf
  split
  · exact sustains.pure _
  · exact sustains.raise (.notAnObject _)

variable (args : List Value)

mutual

theorem eval : (expr : Expr) → (∀ node ∈ expr.nodes, present node) → P (frame.eval args expr)
  | .lit value, _ => by
      rw [Frame.eval]
      exact sustains.pure _
  | .this, _ => by
      rw [Frame.eval]
      exact sustains.pure _
  | .arg index, _ => by
      rw [Frame.eval]
      cases args[index]? with
      | some value => exact sustains.pure value
      | none => exact sustains.raise (.argumentOutOfRange _ _)
  | .new cls domain, occur => by
      rw [Expr.nodes, List.forall_mem_singleton] at occur
      rw [Frame.eval]
      apply sustains.bind (sustains.new occur)
      intro id
      exact sustains.pure _
  | .get target field, occur => by
      rw [Expr.nodes, List.forall_mem_append, List.forall_mem_singleton] at occur
      rw [Frame.eval]
      apply sustains.bind (eval target occur.1)
      intro value
      apply sustains.bind (sustains.objectOf value)
      intro id
      exact sustains.get occur.2 id
  | .set target field value, occur => by
      rw [Expr.nodes, List.forall_mem_append, List.forall_mem_append,
        List.forall_mem_singleton] at occur
      obtain ⟨⟨inTarget, inValue⟩, here⟩ := occur
      rw [Frame.eval]
      apply sustains.bind (eval target inTarget)
      intro targetValue
      apply sustains.bind (sustains.objectOf targetValue)
      intro id
      apply sustains.bind (eval value inValue)
      intro stored
      apply sustains.bind (sustains.set here id stored)
      intro _
      exact sustains.pure stored
  | .invoke target method operands, occur => by
      rw [Expr.nodes, List.forall_mem_append, List.forall_mem_append,
        List.forall_mem_singleton] at occur
      obtain ⟨⟨inTarget, inOperands⟩, here⟩ := occur
      rw [Frame.eval]
      apply sustains.bind (eval target inTarget)
      intro value
      apply sustains.bind (sustains.objectOf value)
      intro id
      apply sustains.bind (evalAll operands inOperands)
      intro values
      exact sustains.invoke here id values
  | .super method operands, occur => by
      rw [Expr.nodes, List.forall_mem_append, List.forall_mem_singleton] at occur
      rw [Frame.eval]
      apply sustains.bind (evalAll operands occur.1)
      intro values
      exact sustains.super occur.2 values
  | .seq steps, occur => by
      rw [Expr.nodes] at occur
      rw [Frame.eval]
      exact evalLast .nil steps occur

theorem evalAll : (exprs : List Expr) → (∀ node ∈ Expr.nodesAll exprs, present node) →
    P (frame.evalAll args exprs)
  | [], _ => by
      rw [Frame.evalAll]
      exact sustains.pure _
  | expr :: rest, occur => by
      rw [Expr.nodesAll, List.forall_mem_append] at occur
      rw [Frame.evalAll]
      apply sustains.bind (eval expr occur.1)
      intro value
      apply sustains.bind (evalAll rest occur.2)
      intro values
      exact sustains.pure _

theorem evalLast (last : Value) : (exprs : List Expr) →
    (∀ node ∈ Expr.nodesAll exprs, present node) → P (frame.evalLast args last exprs)
  | [], _ => by
      rw [Frame.evalLast]
      exact sustains.pure _
  | expr :: rest, occur => by
      rw [Expr.nodesAll, List.forall_mem_append] at occur
      rw [Frame.evalLast]
      apply sustains.bind (eval expr occur.1)
      intro value
      exact evalLast value rest occur.2

end

end Sustains

end Frame

end Lineage
