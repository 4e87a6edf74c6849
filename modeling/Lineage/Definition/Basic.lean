import Lineage.Native.Basic

/-!
# Definitions

What a host hands in to describe classes: each class names its parent and
declares fields and methods.  A method body is an expression of a small language
or a native program.
-/

set_option autoImplicit false

namespace Lineage

/-- The language of method bodies.  Sub-expressions are evaluated from left to
right. -/
inductive Expr where
  | lit (value : Literal)
  | this
  /-- An argument of the running call, counted from 0. -/
  | arg (index : Nat)
  /-- A new instance; without a domain it joins the receiver's. -/
  | new (cls : String) (domain : Option Domain)
  | get (target : Expr) (field : String)
  /-- Store a value into a field and yield it. -/
  | set (target : Expr) (field : String) (value : Expr)
  /-- Call the method that the target's own class resolves. -/
  | invoke (target : Expr) (method : String) (args : List Expr)
  /-- Call the method that the declaring class inherits. -/
  | super (method : String) (args : List Expr)
  /-- Evaluate all and yield the last value, or nil if there is none. -/
  | seq (steps : List Expr)
  deriving Repr, Inhabited

inductive Body where
  | expr (body : Expr)
  | native (body : Native)

structure FieldDecl where
  name : String
  /-- What the field holds in a new instance. -/
  initial : Literal := .nil
  deriving DecidableEq, Repr, Inhabited

structure MethodDecl where
  name : String
  arity : Nat := 0
  body : Body

namespace MethodDecl

def signature (decl : MethodDecl) : Signature := ⟨decl.name, decl.arity⟩

end MethodDecl

/-- One class of a hierarchy.  Its parent has to be defined before it. -/
structure ClassDecl where
  name : String
  parent : Option String := none
  fields : List FieldDecl := []
  methods : List MethodDecl := []

namespace ClassDecl

def withMethod (decl : ClassDecl) (method : MethodDecl) : ClassDecl :=
  { decl with methods := decl.methods ++ [method] }

/-- Give one more method to the first declaration of that name. -/
def attach (cls : String) (method : MethodDecl) : List ClassDecl → List ClassDecl
  | [] => []
  | decl :: rest =>
      if decl.name = cls then decl.withMethod method :: rest
      else decl :: attach cls method rest

end ClassDecl

end Lineage
