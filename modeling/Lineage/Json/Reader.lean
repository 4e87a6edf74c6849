import Lineage.Json.Token

/-!
# Reading JSON texts

`Json.parse?` builds the document of a text from its tokens with a stack of the
arrays and objects that are still open, so nesting of any depth is read in one
pass.  Text after the document is refused.
-/

set_option autoImplicit false

namespace Lineage.Json

/-- An array or object whose end has not been read.  What it holds so far is
newest first; an object waits for the value of its latest name. -/
inductive Pending where
  | array (items : List Json)
  | object (members : List (String × Json)) (name : String)

/-- What may come next, and the open containers around it, innermost first. -/
inductive Reader where
  | value (around : List Pending)
  /-- The first item of an array, or its end. -/
  | item (around : List Pending)
  /-- A key; directly after the opening bracket also the end of the object. -/
  | key (fresh : Bool) (members : List (String × Json)) (around : List Pending)
  | colon (members : List (String × Json)) (name : String) (around : List Pending)
  /-- A document has been completed here. -/
  | complete (document : Json) (around : List Pending)

namespace Reader

/-- The token where a value must stand. -/
def value? (around : List Pending) : Token → Option Reader
  | .scalar document => some (.complete document around)
  | .openArray => some (.item around)
  | .openObject => some (.key true [] around)
  | _ => none

/-- The token after a completed document. -/
def continue? (document : Json) : List Pending → Token → Option Reader
  | .array items :: around, .comma => some (.value (.array (document :: items) :: around))
  | .array items :: around, .closeArray =>
      some (.complete (.arr (document :: items).reverse) around)
  | .object members name :: around, .comma =>
      some (.key false ((name, document) :: members) around)
  | .object members name :: around, .closeObject =>
      some (.complete (.obj ((name, document) :: members).reverse) around)
  | _, _ => none

def step? : Reader → Token → Option Reader
  | .value around, token => value? around token
  | .item around, .closeArray => some (.complete (.arr []) around)
  | .item around, token => value? (.array [] :: around) token
  | .key true _ around, .closeObject => some (.complete (.obj []) around)
  | .key _ members around, .scalar (.str name) => some (.colon members name around)
  | .key .., _ => none
  | .colon members name around, .colon => some (.value (.object members name :: around))
  | .colon .., _ => none
  | .complete document around, token => continue? document around token

def finish? : Reader → Option Json
  | .complete document [] => some document
  | _ => none

end Reader

def parse? (text : String) : Option Json := do
  let tokens ← Token.read? text
  let reader ← tokens.foldlM Reader.step? (.value [])
  reader.finish?

end Lineage.Json
