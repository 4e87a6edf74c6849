import Lineage.Proofs.Call.Steps
import Lineage.Proofs.Definition.Marks

/-!
# Evaluation as relations between actions see it

A body is evaluated by single steps of its frame, put together by sequencing.  If a
relation between actions holds of each step of one frame with the like step of another,
and sequencing keeps it, the two frames are in accord (`Frame.Accord`), and it holds of
whole bodies: `eval` has one case for each kind of expression, `runBody` adds the bodies
that the host provides, for which a fault may be handed back (`Frame.Serves`).  The second
frame runs the bodies of the first with their domain marks changed.  What is not asked is
that the relation holds of a breach.
-/

set_option autoImplicit false

namespace Lineage

namespace Frame

section Relations
variable (mark : Option Domain → Option Domain)
  (Rel : ∀ {α : Type}, Action α → Action α → Prop)

/-- The relation holds of every step of an expression body in one frame with the like
step in the other, and sequencing keeps it. -/
structure Accord (frame other : Frame) : Prop where
  receiver : other.receiver = frame.receiver
  signature : other.method.signature = frame.method.signature
  lift : ∀ {α : Type} {outcome : Outcome α}, outcome ≠ .error .breach →
    Rel (Action.lift outcome) (Action.lift outcome)
  bind : ∀ {α β : Type} {one two : Action α} {next after : α → Action β}, Rel one two →
    (∀ value, Rel (next value) (after value)) → Rel (one >>= next) (two >>= after)
  read : ∀ id field, Rel (frame.dispatcher.read id field) (other.dispatcher.read id field)
  write : ∀ id field value,
    Rel (frame.dispatcher.write id field value) (other.dispatcher.write id field value)
  allocate : ∀ cls domain, Rel (frame.allocate cls domain) (other.allocate cls (mark domain))
  invoke : ∀ target method args,
    Rel (frame.invoke target method args) (other.invoke target method args)
  invokeSuper : ∀ method args, Rel (frame.invokeSuper method args) (other.invokeSuper method args)

/-- The relation holds of what only a body that the host provides can do. -/
structure Serves (frame other : Frame) : Prop where
  depth : other.depth = frame.depth
  attempt : ∀ {α : Type} {one two : Action α}, Rel one two →
    Rel (Action.attempt one) (Action.attempt two)
  domain : Rel frame.domain other.domain
  allocate : ∀ cls domain, Rel (frame.allocate cls domain) (other.allocate cls domain)

end Relations

variable {mark : Option Domain → Option Domain}
  {Rel : ∀ {α : Type}, Action α → Action α → Prop} {frame other : Frame}

namespace Accord

variable (accord : Accord mark Rel frame other) {α : Type}
include accord

theorem pure (value : α) : Rel (Pure.pure value) (Pure.pure value) :=
  accord.lift (show (Except.ok value : Outcome α) ≠ .error .breach by simp)

theorem raise (cause : Fault) : Rel (Action.raise cause : Action α) (Action.raise cause) :=
  accord.lift (by simp [refuse])

theorem objectOf (value : Value) : Rel (Frame.objectOf value) (Frame.objectOf value) := by
  unfold Frame.objectOf
  split
  · exact accord.pure _
  · exact accord.raise _

variable (args : List Value)

mutual

theorem eval : (expr : Expr) →
    Rel (frame.eval args expr) (other.eval args (expr.mapMarks mark))
  | .lit value => by
      rw [Expr.mapMarks, Frame.eval, Frame.eval]
      exact accord.pure _
  | .this => by
      rw [Expr.mapMarks, Frame.eval, Frame.eval, accord.receiver]
      exact accord.pure _
  | .arg index => by
      rw [Expr.mapMarks, Frame.eval, Frame.eval, accord.signature]
      cases args[index]? with
      | some value => exact accord.pure value
      | none => exact accord.raise _
  | .new cls domain => by
      rw [Expr.mapMarks, Frame.eval, Frame.eval]
      apply accord.bind (accord.allocate cls domain)
      intro id
      exact accord.pure _
  | .get target field => by
      rw [Expr.mapMarks, Frame.eval, Frame.eval]
      apply accord.bind (eval target)
      intro value
      apply accord.bind (accord.objectOf value)
      intro id
      exact accord.read id field
  | .set target field value => by
      rw [Expr.mapMarks, Frame.eval, Frame.eval]
      apply accord.bind (eval target)
      intro targetValue
      apply accord.bind (accord.objectOf targetValue)
      intro id
      apply accord.bind (eval value)
      intro stored
      apply accord.bind (accord.write id field stored)
      intro _
      exact accord.pure stored
  | .invoke target method operands => by
      rw [Expr.mapMarks, Frame.eval, Frame.eval]
      apply accord.bind (eval target)
      intro value
      apply accord.bind (accord.objectOf value)
      intro id
      apply accord.bind (evalAll operands)
      intro values
      exact accord.invoke id method values
  | .super method operands => by
      rw [Expr.mapMarks, Frame.eval, Frame.eval]
      apply accord.bind (evalAll operands)
      intro values
      exact accord.invokeSuper method values
  | .seq steps => by
      rw [Expr.mapMarks, Frame.eval, Frame.eval]
      exact evalLast .nil steps

theorem evalAll : (exprs : List Expr) →
    Rel (frame.evalAll args exprs) (other.evalAll args (Expr.mapMarksAll mark exprs))
  | [] => by
      rw [Expr.mapMarksAll, Frame.evalAll, Frame.evalAll]
      exact accord.pure _
  | expr :: rest => by
      rw [Expr.mapMarksAll, Frame.evalAll, Frame.evalAll]
      apply accord.bind (eval expr)
      intro value
      apply accord.bind (evalAll rest)
      intro values
      exact accord.pure _

theorem evalLast (last : Value) : (exprs : List Expr) →
    Rel (frame.evalLast args last exprs)
      (other.evalLast args last (Expr.mapMarksAll mark exprs))
  | [] => by
      rw [Expr.mapMarksAll, Frame.evalLast, Frame.evalLast]
      exact accord.pure _
  | expr :: rest => by
      rw [Expr.mapMarksAll, Frame.evalLast, Frame.evalLast]
      apply accord.bind (eval expr)
      intro value
      exact evalLast value rest

end

omit args in
theorem answer (serves : Serves Rel frame other) (request : Native.Request) :
    Rel (frame.answer request) (other.answer request) := by
  cases request with
  | domain => exact serves.domain
  | read target field => exact accord.read target field
  | write target field value => exact accord.write target field value
  | allocate cls domain => exact serves.allocate cls domain
  | invoke target method args => exact accord.invoke target method args
  | invokeSuper method args => exact accord.invokeSuper method args

omit args in
theorem perform (serves : Serves Rel frame other) (owner : String)
    (program : Native.Program Value) :
    Rel (frame.perform owner program) (other.perform owner program) := by
  induction program with
  | done value => exact accord.pure value
  | fail cause =>
      rw [Frame.perform, Frame.perform, accord.signature]
      exact accord.raise _
  | raise fault => exact accord.raise fault
  | ask request resume ih =>
      rw [Frame.perform, Frame.perform]
      apply accord.bind (serves.attempt (accord.answer serves request))
      intro reply
      exact ih reply

/-- The frames run the same body, but for its marks. -/
theorem runBody (bodies : other.method.body = frame.method.body.mapMarks mark)
    (permitted : frame.method.body.isExpr = true ∨ Serves Rel frame other) (owner : String) :
    Rel (frame.runBody owner args) (other.runBody owner args) := by
  cases isBody : frame.method.body with
  | expr body =>
      have isOther : other.method.body = .expr (body.mapMarks mark) := by
        rw [bodies, isBody, Body.mapMarks]
      rw [runBody_of_expr isBody, runBody_of_expr isOther]
      exact accord.eval args body
  | native body =>
      have isOther : other.method.body = .native body := by
        rw [bodies, isBody, Body.mapMarks]
      have serves : Serves Rel frame other := by
        apply permitted.resolve_left
        simp [isBody, Body.isExpr]
      have sameView : other.view owner = frame.view owner := by
        simp only [view, accord.receiver, accord.signature, serves.depth]
      rw [runBody_of_native isBody, runBody_of_native isOther, sameView]
      exact accord.perform serves owner _

end Accord

end Frame

end Lineage
