import Lineage.Json.Basic

/-!
# The grammar of definitions

How the documents are written that definitions are read from, apart from any reader.  A
shape is a type of document and `Shape.rule` is the rule for it: a record has named parts,
some of which may be left out, and a choice has variants, with or without a payload.
`Conforms` says which documents follow the rules all the way down.  A `Context` is a
document in which one place, at any depth, is open to documents of some shape.
-/

set_option autoImplicit false

namespace Lineage

/-- The types of documents.  What a variant of an expression carries has a type of its
own. -/
inductive Shape where
  | text
  | textOrNull
  | count
  | flag
  | literal
  | domain
  | domainOrNull
  | expr
  | arg
  | new
  | get
  | set
  | invoke
  | super
  | exprs
  | body
  | field
  | fields
  | method
  | methods
  | cls
  | classes
  | options
  deriving DecidableEq, Repr

/-- One part of a record. -/
structure Part where
  name : String
  shape : Shape
  /-- What is read instead where the part is left out.  Without it the part must be there. -/
  absent : Option Json := none

/-- How the documents of a shape are written. -/
inductive Rule where
  | scalar (accepts : Json → Prop)
  | list (inner : Shape)
  | record (parts : List Part)
  /-- One of several variants, those that carry nothing and those that have a payload. -/
  | choice (orNull : Bool) (bare : List String) (carrying : List (String × Shape))

/-- Null, a boolean, a whole number of 64 bits with a sign, or a string. -/
def Json.IsLiteral : Json → Prop
  | .null | .bool _ | .str _ => True
  | .int n => -0x8000000000000000 ≤ n ∧ n < 0x8000000000000000
  | _ => False

/-- The parts of a shape that is a record. -/
def Shape.parts : Shape → List Part
  | .arg => [{ name := "index", shape := .count }]
  | .new =>
      [{ name := "class", shape := .text },
        { name := "domain", shape := .domainOrNull, absent := some .null }]
  | .get => [{ name := "target", shape := .expr }, { name := "field", shape := .text }]
  | .set =>
      [{ name := "target", shape := .expr }, { name := "field", shape := .text },
        { name := "value", shape := .expr }]
  | .invoke =>
      [{ name := "target", shape := .expr }, { name := "method", shape := .text },
        { name := "args", shape := .exprs, absent := some (.arr []) }]
  | .super =>
      [{ name := "method", shape := .text },
        { name := "args", shape := .exprs, absent := some (.arr []) }]
  | .field =>
      [{ name := "name", shape := .text },
        { name := "default", shape := .literal, absent := some .null }]
  | .method =>
      [{ name := "name", shape := .text },
        { name := "arity", shape := .count, absent := some (.int 0) },
        { name := "body", shape := .body }]
  | .cls =>
      [{ name := "name", shape := .text },
        { name := "parent", shape := .textOrNull, absent := some .null },
        { name := "fields", shape := .fields, absent := some (.arr []) },
        { name := "methods", shape := .methods, absent := some (.arr []) }]
  | .options =>
      [{ name := "max_call_depth", shape := .count, absent := some (.int 256) },
        { name := "trace_calls", shape := .flag, absent := some (.bool false) }]
  | _ => []

def Shape.rule : Shape → Rule
  | .text => .scalar fun json => ∃ text, json = .str text
  | .textOrNull => .scalar fun json => json = .null ∨ ∃ text, json = .str text
  | .count => .scalar fun json => ∃ n : Nat, n < 0x10000000000000000 ∧ json = .int n
  | .flag => .scalar fun json => ∃ flag, json = .bool flag
  | .literal => .scalar Json.IsLiteral
  | .domain => .choice false ["managed", "unmanaged"] []
  | .domainOrNull => .choice true ["managed", "unmanaged"] []
  | .expr => .choice false ["this"]
      [("lit", .literal), ("arg", .arg), ("new", .new), ("get", .get), ("set", .set),
        ("invoke", .invoke), ("super", .super), ("seq", .exprs)]
  | .body => .choice false [] [("expr", .expr)]
  | .exprs => .list .expr
  | .fields => .list .field
  | .methods => .list .method
  | .classes => .list .cls
  | .arg => .record Shape.arg.parts
  | .new => .record Shape.new.parts
  | .get => .record Shape.get.parts
  | .set => .record Shape.set.parts
  | .invoke => .record Shape.invoke.parts
  | .super => .record Shape.super.parts
  | .field => .record Shape.field.parts
  | .method => .record Shape.method.parts
  | .cls => .record Shape.cls.parts
  | .options => .record Shape.options.parts

/-- The document follows the rule of the shape, and so do the documents below it. -/
inductive Conforms : Shape → Json → Prop where
  | scalar {shape : Shape} {accepts : Json → Prop} {json : Json}
      (rule : shape.rule = .scalar accepts) (accepted : accepts json) : Conforms shape json
  | list {shape inner : Shape} {items : List Json} (rule : shape.rule = .list inner)
      (each : ∀ item ∈ items, Conforms inner item) : Conforms shape (.arr items)
  /-- A record under its keys.  Keys that are not known do not matter. -/
  | object {shape : Shape} {parts : List Part} {members : List (String × Json)}
      (rule : shape.rule = .record parts)
      (once : ∀ part ∈ parts, (members.map Prod.fst).count part.name ≤ 1)
      (given : ∀ part ∈ parts, part.absent = none → part.name ∈ members.map Prod.fst)
      (each : ∀ part ∈ parts, ∀ node, (part.name, node) ∈ members → Conforms part.shape node) :
      Conforms shape (.obj members)
  /-- A record as an array of its parts, in which the last ones may be left out. -/
  | array {shape : Shape} {parts : List Part} {items : List Json}
      (rule : shape.rule = .record parts) (fits : items.length ≤ parts.length)
      (rest : ∀ (index : Nat) part, parts[index]? = some part → items.length ≤ index →
        part.absent ≠ none)
      (each : ∀ (index : Nat) part item, parts[index]? = some part →
        items[index]? = some item → Conforms part.shape item) : Conforms shape (.arr items)
  | null {shape : Shape} {bare : List String} {carrying : List (String × Shape)}
      (rule : shape.rule = .choice true bare carrying) : Conforms shape .null
  | bare {shape : Shape} {orNull : Bool} {bare : List String}
      {carrying : List (String × Shape)} {name : String}
      (rule : shape.rule = .choice orNull bare carrying) (known : name ∈ bare) :
      Conforms shape (.str name)
  | alone {shape : Shape} {orNull : Bool} {bare : List String}
      {carrying : List (String × Shape)} {name : String}
      (rule : shape.rule = .choice orNull bare carrying) (known : name ∈ bare) :
      Conforms shape (.obj [(name, .null)])
  | payload {shape inner : Shape} {orNull : Bool} {bare : List String}
      {carrying : List (String × Shape)} {name : String} {node : Json}
      (rule : shape.rule = .choice orNull bare carrying) (known : (name, inner) ∈ carrying)
      (below : Conforms inner node) : Conforms shape (.obj [(name, node)])

/-- A document of the outer shape in which a place right below is open to documents of the
inner shape. -/
inductive Opening : Shape → Shape → (Json → Json) → Prop where
  | item {outer inner : Shape} (rule : outer.rule = .list inner) (before after : List Json) :
      Opening outer inner fun node => .arr (before ++ node :: after)
  | member {outer : Shape} {parts : List Part} {part : Part} (rule : outer.rule = .record parts)
      (known : part ∈ parts) (before after : List (String × Json)) :
      Opening outer part.shape fun node => .obj (before ++ (part.name, node) :: after)
  | element {outer : Shape} {parts : List Part} {part : Part} (rule : outer.rule = .record parts)
      (before after : List Json) (known : parts[before.length]? = some part) :
      Opening outer part.shape fun node => .arr (before ++ node :: after)
  | payload {outer inner : Shape} {orNull : Bool} {bare : List String}
      {carrying : List (String × Shape)} {name : String}
      (rule : outer.rule = .choice orNull bare carrying) (known : (name, inner) ∈ carrying) :
      Opening outer inner fun node => .obj [(name, node)]

/-- The same at any depth. -/
inductive Context (outer : Shape) : Shape → (Json → Json) → Prop where
  | here : Context outer outer id
  | within {middle inner : Shape} {above below : Json → Json}
      (surrounding : Context outer middle above) (opening : Opening middle inner below) :
      Context outer inner fun node => above (below node)

end Lineage
