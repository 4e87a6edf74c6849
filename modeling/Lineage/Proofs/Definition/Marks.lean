import Lineage.Class.Basic

/-!
# Domain marks

A `new` node may be marked with a domain.  `mapMarks` changes the marks of a body and
nothing else, so two bodies with the same image differ at most in their marks.
-/

set_option autoImplicit false

namespace Lineage

namespace Expr

section Marks
variable (mark : Option Domain → Option Domain)

mutual

/-- The expression with the marks of its `new` nodes changed. -/
def mapMarks : Expr → Expr
  | .lit value => .lit value
  | .this => .this
  | .arg index => .arg index
  | .new cls domain => .new cls (mark domain)
  | .get target field => .get (mapMarks target) field
  | .set target field value => .set (mapMarks target) field (mapMarks value)
  | .invoke target method operands => .invoke (mapMarks target) method (mapMarksAll operands)
  | .super method operands => .super method (mapMarksAll operands)
  | .seq steps => .seq (mapMarksAll steps)

def mapMarksAll : List Expr → List Expr
  | [] => []
  | expr :: rest => mapMarks expr :: mapMarksAll rest

end

end Marks

mutual

theorem mapMarks_id : (expr : Expr) → expr.mapMarks id = expr
  | .lit value => rfl
  | .this => rfl
  | .arg index => rfl
  | .new cls domain => rfl
  | .get target field => by rw [mapMarks, mapMarks_id target]
  | .set target field value => by rw [mapMarks, mapMarks_id target, mapMarks_id value]
  | .invoke target method operands => by
      rw [mapMarks, mapMarks_id target, mapMarksAll_id operands]
  | .super method operands => by rw [mapMarks, mapMarksAll_id operands]
  | .seq steps => by rw [mapMarks, mapMarksAll_id steps]

theorem mapMarksAll_id : (exprs : List Expr) → mapMarksAll id exprs = exprs
  | [] => rfl
  | expr :: rest => by rw [mapMarksAll, mapMarks_id expr, mapMarksAll_id rest]

end

end Expr

/-- A body with its marks changed; one that the host provides has none. -/
def Body.mapMarks (mark : Option Domain → Option Domain) : Body → Body
  | .expr body => .expr (body.mapMarks mark)
  | .native body => .native body

theorem Body.mapMarks_id (body : Body) : body.mapMarks id = body := by
  cases body with
  | expr body => rw [mapMarks, Expr.mapMarks_id]
  | native body => rfl

/-- A method with the marks of its body changed. -/
def Method.mapMarks (mark : Option Domain → Option Domain) (method : Method) : Method :=
  { method with body := method.body.mapMarks mark }

theorem Method.mapMarks_id (method : Method) : method.mapMarks id = method := by
  rw [mapMarks, Body.mapMarks_id]

end Lineage
