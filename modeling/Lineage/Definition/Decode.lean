import Lineage.Definition.Basic
import Lineage.Json.Record

/-!
# Reading definitions from JSON

The decoders are total and give `none` for a document that does not fit.  A
choice between variants is written as an object with the variant's name as its
only key; a variant that carries nothing may also be its bare name.  Null stands
only for the nil literal, for an absent parent or domain, and for the payload of
a variant that carries nothing.
-/

set_option autoImplicit false

namespace Lineage

namespace Domain

def decode : Json → Option Domain
  | .str "managed" => some .managed
  | .str "unmanaged" => some .unmanaged
  | .obj [("managed", .null)] => some .managed
  | .obj [("unmanaged", .null)] => some .unmanaged
  | _ => none

end Domain

namespace Literal

/-- A whole number becomes a constant if 64 bits hold it. -/
def ofInt? (n : Int) : Option Literal :=
  if Int64.minValue.toInt ≤ n ∧ n ≤ Int64.maxValue.toInt then some (.int (Int64.ofInt n)) else none

def decode : Json → Option Literal
  | .null => some .nil
  | .bool b => some (.bool b)
  | .int n => ofInt? n
  | .str s => some (.str s)
  | _ => none

end Literal

namespace Expr

/-- Decode an expression.  The parts of a record and the items of an array are
smaller than the document, so the recursion ends. -/
def decode (json : Json) : Option Expr :=
  match json with
  | .str "this" => some .this
  | .obj [("this", .null)] => some .this
  | .obj [("lit", payload)] => (Literal.decode payload).map .lit
  | .obj [("arg", payload)] => do
      let record ← payload.record? ["index"]
      return .arg (← record.required "index" Json.count?)
  | .obj [("new", payload)] => do
      let record ← payload.record? ["class", "domain"]
      let cls ← record.required "class" Json.str?
      let domain ← record.optional "domain" none (Json.nullable Domain.decode)
      return .new cls domain
  | .obj [("get", payload)] => do
      let record ← payload.record? ["target", "field"]
      let target ← record.part? "target"
      let field ← record.required "field" Json.str?
      return .get (← decode target.1) field
  | .obj [("set", payload)] => do
      let record ← payload.record? ["target", "field", "value"]
      let target ← record.part? "target"
      let field ← record.required "field" Json.str?
      let value ← record.part? "value"
      return .set (← decode target.1) field (← decode value.1)
  | .obj [("invoke", payload)] => do
      let record ← payload.record? ["target", "method", "args"]
      let target ← record.part? "target"
      let method ← record.required "method" Json.str?
      match record.part? "args" with
      | none => return .invoke (← decode target.1) method []
      | some args =>
          let items ← args.1.items?
          let values ← items.mapM fun item => decode item.1
          return .invoke (← decode target.1) method values
  | .obj [("super", payload)] => do
      let record ← payload.record? ["method", "args"]
      let method ← record.required "method" Json.str?
      match record.part? "args" with
      | none => return .super method []
      | some args =>
          let items ← args.1.items?
          let values ← items.mapM fun item => decode item.1
          return .super method values
  | .obj [("seq", payload)] => do
      let items ← payload.items?
      let steps ← items.mapM fun item => decode item.1
      return .seq steps
  | _ => none
termination_by sizeOf json

end Expr

/-- A body is an expression.  Native bodies are never written down. -/
def Body.decode : Json → Option Body
  | .obj [("expr", payload)] => (Expr.decode payload).map .expr
  | _ => none

namespace FieldDecl

def decode (json : Json) : Option FieldDecl := do
  let record ← json.record? ["name", "default"]
  let name ← record.required "name" Json.str?
  let initial ← record.optional "default" .nil Literal.decode
  return { name, initial }

end FieldDecl

namespace MethodDecl

def decode (json : Json) : Option MethodDecl := do
  let record ← json.record? ["name", "arity", "body"]
  let name ← record.required "name" Json.str?
  let arity ← record.optional "arity" 0 Json.count?
  let body ← record.required "body" Body.decode
  return { name, arity, body }

end MethodDecl

namespace ClassDecl

def decode (json : Json) : Option ClassDecl := do
  let record ← json.record? ["name", "parent", "fields", "methods"]
  let name ← record.required "name" Json.str?
  let parent ← record.optional "parent" none (Json.nullable Json.str?)
  let fields ← record.optional "fields" [] (Json.listOf FieldDecl.decode)
  let methods ← record.optional "methods" [] (Json.listOf MethodDecl.decode)
  return { name, parent, fields, methods }

end ClassDecl

end Lineage
