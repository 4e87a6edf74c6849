import Lineage.Definition.Basic
import Lineage.Json.Basic

/-!
# Writing definitions as JSON

Every key is written, also where the value is the one that a reader would fill
in.  A variant that carries nothing is written as its bare name.  A definition
with a native body has no written form.
-/

set_option autoImplicit false

namespace Lineage

def Domain.encode (domain : Domain) : Json := .str domain.text

def Literal.encode : Literal → Json
  | .nil => .null
  | .bool b => .bool b
  | .int n => .int n.toInt
  | .str s => .str s

namespace Expr

mutual

def encode : Expr → Json
  | .lit value => .obj [("lit", value.encode)]
  | .this => .str "this"
  | .arg index => .obj [("arg", .obj [("index", .int index)])]
  | .new cls domain =>
      .obj [("new", .obj [("class", .str cls), ("domain", .ofOption Domain.encode domain)])]
  | .get target field =>
      .obj [("get", .obj [("target", encode target), ("field", .str field)])]
  | .set target field value =>
      .obj [("set", .obj [("target", encode target), ("field", .str field),
        ("value", encode value)])]
  | .invoke target method args =>
      .obj [("invoke", .obj [("target", encode target), ("method", .str method),
        ("args", .arr (encodeAll args))])]
  | .super method args =>
      .obj [("super", .obj [("method", .str method), ("args", .arr (encodeAll args))])]
  | .seq steps => .obj [("seq", .arr (encodeAll steps))]

def encodeAll : List Expr → List Json
  | [] => []
  | expr :: rest => encode expr :: encodeAll rest

end

end Expr

/-- The written form of a body, unless it is native. -/
def Body.encode : Body → Option Json
  | .expr body => some (.obj [("expr", body.encode)])
  | .native _ => none

namespace FieldDecl

def encode (decl : FieldDecl) : Json :=
  .obj [("name", .str decl.name), ("default", decl.initial.encode)]

end FieldDecl

namespace MethodDecl

def encode (decl : MethodDecl) : Option Json := do
  let body ← decl.body.encode
  return .obj [("name", .str decl.name), ("arity", .int decl.arity), ("body", body)]

end MethodDecl

namespace ClassDecl

def encode (decl : ClassDecl) : Option Json := do
  let methods ← decl.methods.mapM MethodDecl.encode
  return .obj [("name", .str decl.name), ("parent", .ofOption .str decl.parent),
    ("fields", .arr (decl.fields.map FieldDecl.encode)), ("methods", .arr methods)]

def encodeAll (decls : List ClassDecl) : Option Json :=
  (decls.mapM encode).map .arr

end ClassDecl

end Lineage
