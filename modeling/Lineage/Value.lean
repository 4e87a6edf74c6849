/-!
# Values

The data that flows through field slots, arguments and results: object-free
literals, which a definition may write down, and run-time values, which add
references to instances.  Every value has a kind, named in fault messages, and
one display text.
-/

set_option autoImplicit false

namespace Lineage

/-- Where an instance was allocated.  The tag is descriptive only: neither
dispatch nor field access looks at it. -/
inductive Domain where
  | managed
  | unmanaged
  deriving DecidableEq, Repr, Inhabited

def Domain.text : Domain → String
  | .managed => "managed"
  | .unmanaged => "unmanaged"

/-- The number of an instance within its store.  Numbers start at 1. -/
abbrev InstanceNo := Nat

def InstanceNo.text (id : InstanceNo) : String := "#" ++ toString id

/-- A constant of a definition: a field's initial value or a `lit` node. -/
inductive Literal where
  | nil
  | bool (b : Bool)
  | int (n : Int64)
  | str (s : String)
  deriving DecidableEq, Repr, Inhabited

/-- The kinds of value that fault messages tell apart. -/
inductive Kind where
  | nil
  | bool
  | int
  | string
  | object
  deriving DecidableEq, Repr, Inhabited

def Kind.text : Kind → String
  | .nil => "Nil"
  | .bool => "Bool"
  | .int => "Int"
  | .string => "String"
  | .object => "Object"

/-- A run-time value.  An object is known by its number alone, whether or not
the store still holds it. -/
inductive Value where
  | nil
  | bool (b : Bool)
  | int (n : Int64)
  | str (s : String)
  | object (id : InstanceNo)
  deriving DecidableEq, Repr, Inhabited

def Literal.value : Literal → Value
  | .nil => .nil
  | .bool b => .bool b
  | .int n => .int n
  | .str s => .str s

namespace Value

def kind : Value → Kind
  | .nil => .nil
  | .bool _ => .bool
  | .int _ => .int
  | .str _ => .string
  | .object _ => .object

def object? : Value → Option InstanceNo
  | .object id => some id
  | _ => none

def str? : Value → Option String
  | .str s => some s
  | _ => none

def int? : Value → Option Int64
  | .int n => some n
  | _ => none

/-- The display text.  A string shows itself, without quotes. -/
def text : Value → String
  | .nil => "nil"
  | .bool true => "true"
  | .bool false => "false"
  | .int n => toString n.toInt
  | .str s => s
  | .object id => "Object(" ++ InstanceNo.text id ++ ")"

@[simp] theorem object?_eq_some_iff (value : Value) (id : InstanceNo) :
    value.object? = some id ↔ value = .object id := by
  cases value <;> simp [object?]

end Value

@[simp] theorem Literal.object?_value (literal : Literal) :
    literal.value.object? = none := by
  cases literal <;> rfl

theorem Literal.value_injective (left right : Literal)
    (same : left.value = right.value) : left = right := by
  cases left <;> cases right <;> simp_all [Literal.value]

end Lineage
