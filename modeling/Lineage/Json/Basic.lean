/-!
# JSON documents

The tree that a JSON text denotes.  Whole numbers are kept apart from numbers
that are written with a fraction or an exponent, because only the former can be
indices, arities or integer constants.  Members keep the order of the text.
-/

set_option autoImplicit false

namespace Lineage

inductive Json where
  | null
  | bool (b : Bool)
  /-- A number without fraction and exponent; `-0` is not one of them. -/
  | int (n : Int)
  /-- Any other number, as it is written. -/
  | real (written : String)
  | str (s : String)
  | arr (items : List Json)
  | obj (members : List (String × Json))
  deriving Repr, Inhabited

namespace Json

def str? : Json → Option String
  | .str s => some s
  | _ => none

def bool? : Json → Option Bool
  | .bool b => some b
  | _ => none

/-- A whole number from 0 up to, but not including, 2^64. -/
def count? : Json → Option Nat
  | .int (.ofNat n) => if n < UInt64.size then some n else none
  | _ => none

def arr? : Json → Option (List Json)
  | .arr items => some items
  | _ => none

def member? (json : Json) (key : String) : Option Json :=
  match json with
  | .obj members => members.lookup key
  | _ => none

def ofOption {α : Type} (encode : α → Json) : Option α → Json
  | none => .null
  | some value => encode value

end Json

end Lineage
