/-!
# Method signatures

A method is keyed by its name and its arity; argument types never take part.
Signatures are ordered by name, code point by code point, then by arity.
-/

set_option autoImplicit false

namespace Lineage

/-- The key of a method: its name and the number of its arguments. -/
structure Signature where
  name : String
  arity : Nat
  deriving DecidableEq, Repr, Inhabited

namespace Signature

/-- The written form `name/arity`. -/
def text (signature : Signature) : String :=
  signature.name ++ "/" ++ toString signature.arity

/-- The order of names; equal names are ordered by arity as a number. -/
def compare (left right : Signature) : Ordering :=
  if left.name < right.name then .lt
  else if right.name < left.name then .gt
  else if left.arity < right.arity then .lt
  else if right.arity < left.arity then .gt
  else .eq

/-- Whether `left` may stand before `right` in a sorted list. -/
def le (left right : Signature) : Bool :=
  compare left right != .gt

/-- The given signatures in ascending order, each once. -/
def sorted (signatures : List Signature) : List Signature :=
  signatures.eraseDups.mergeSort le

end Signature

end Lineage
