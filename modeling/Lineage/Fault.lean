import Lineage.Value
import Lineage.Signature

/-!
# Faults and failures

A `Fault` is a cause for which the engine refuses a definition or a call; its
message is derived from it.  A `Failure` is what an operation can end with
instead of an answer: a fault, or a breach, which is a use of an unchecked
operation outside its contract.
-/

set_option autoImplicit false

namespace Lineage

/-- Why a definition or a call was refused.  Classes are given by name. -/
inductive Fault where
  | duplicateClass (cls : String)
  | unknownParent (cls parent : String)
  | cyclicHierarchy (cls : String)
  | duplicateMember (cls member : String)
  | unknownClass (cls : String)
  | unknownField (cls field : String)
  | noSuchMethod (cls : String) (signature : Signature)
  | incompatibleStaticType (cls staticType : String)
  | unknownInstance (id : InstanceNo)
  | notAnObject (found : Kind)
  | argumentOutOfRange (index : Nat) (signature : Signature)
  | callDepthExceeded (limit : Nat)
  | native (cls : String) (signature : Signature) (cause : String)
  deriving DecidableEq, Repr

namespace Fault

def kind : Fault → String
  | .duplicateClass .. => "DuplicateClass"
  | .unknownParent .. => "UnknownParent"
  | .cyclicHierarchy .. => "CyclicHierarchy"
  | .duplicateMember .. => "DuplicateMember"
  | .unknownClass .. => "UnknownClass"
  | .unknownField .. => "UnknownField"
  | .noSuchMethod .. => "NoSuchMethod"
  | .incompatibleStaticType .. => "IncompatibleStaticType"
  | .unknownInstance .. => "UnknownInstance"
  | .notAnObject .. => "NotAnObject"
  | .argumentOutOfRange .. => "ArgumentOutOfRange"
  | .callDepthExceeded .. => "CallDepthExceeded"
  | .native .. => "Native"

def message : Fault → String
  | .duplicateClass cls => "class '" ++ cls ++ "' is already defined"
  | .unknownParent cls parent =>
      "class '" ++ cls ++ "' extends unknown class '" ++ parent ++ "'"
  | .cyclicHierarchy cls => "class '" ++ cls ++ "' would become its own ancestor"
  | .duplicateMember cls member =>
      "class '" ++ cls ++ "' declares '" ++ member ++ "' more than once"
  | .unknownClass cls => "unknown class '" ++ cls ++ "'"
  | .unknownField cls field => "class '" ++ cls ++ "' has no field '" ++ field ++ "'"
  | .noSuchMethod cls signature =>
      "class '" ++ cls ++ "' has no method '" ++ signature.text ++ "'"
  | .incompatibleStaticType cls staticType =>
      "'" ++ staticType ++ "' is not '" ++ cls ++ "' or one of its ancestors"
  | .unknownInstance id => "instance " ++ InstanceNo.text id ++ " does not exist"
  | .notAnObject found => "expected an object, found " ++ found.text
  | .argumentOutOfRange index signature =>
      "argument " ++ toString index ++ " is out of range in '" ++ signature.text ++ "'"
  | .callDepthExceeded limit => "call depth limit of " ++ toString limit ++ " exceeded"
  | .native cls signature cause =>
      "native method '" ++ cls ++ "." ++ signature.text ++ "' failed: " ++ cause

/-- Whether the fault refuses a definition, and not a single call. -/
def isConstruction : Fault → Bool
  | .duplicateClass .. | .unknownParent .. | .cyclicHierarchy .. | .duplicateMember .. => true
  | _ => false

end Fault

/-- How an operation ends without an answer. -/
inductive Failure where
  /-- The engine refused, and says why. -/
  | fault (cause : Fault)
  /-- An unchecked operation was used outside its contract. -/
  | breach
  deriving DecidableEq, Repr

/-- An answer, or the failure that stands in its place. -/
abbrev Outcome (α : Type) := Except Failure α

def refuse {α : Type} (cause : Fault) : Outcome α := .error (.fault cause)

end Lineage
