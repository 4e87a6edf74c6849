import Lineage.Json.Basic
import Lineage.Signature
import Lineage.Text.Quoted
import Lineage.Value

/-!
# Events

What the engine reports while it works.  An event has a level, a message and
named fields.
-/

set_option autoImplicit false

namespace Lineage

inductive Level where
  | debug
  | trace
  deriving DecidableEq, Repr

def Level.text : Level → String
  | .debug => "DEBUG"
  | .trace => "TRACE"

inductive Event where
  /-- A class was defined, with the counts of its own fields, all its slots and
  its own methods. -/
  | defined (cls : String) (parent : Option String) (fields slots methods : Nat)
  /-- A table was closed, with the counts of classes and dispatch entries. -/
  | closed (classes entries : Nat)
  | allocated (id : InstanceNo) (cls : String) (domain : Domain)
  | released (id : InstanceNo)
  /-- A method begins to run.  The class is the receiver's own, the owner the
  one that declares the method. -/
  | dispatched (level : Level) (receiver : InstanceNo) (cls : String) (method : Signature)
      (owner : String) (depth : Nat)
  deriving DecidableEq, Repr

namespace Event

def level : Event → Level
  | .defined .. => .debug
  | .closed .. => .debug
  | .allocated .. => .trace
  | .released .. => .trace
  | .dispatched level .. => level

def message : Event → String
  | .defined .. => "defined class"
  | .closed .. => "sealed hierarchy"
  | .allocated .. => "allocated"
  | .released .. => "released"
  | .dispatched .. => "dispatch"

/-- The named fields.  Counts and depths are numbers, the rest are texts. -/
def fields : Event → List (String × Json)
  | .defined cls parent fields slots methods =>
      [("class", .str cls), ("parent", .str (Text.quotedOption parent)),
        ("fields", .int fields), ("slots", .int slots), ("methods", .int methods)]
  | .closed classes entries => [("classes", .int classes), ("entries", .int entries)]
  | .allocated id cls domain =>
      [("instance", .str id.text), ("class", .str cls), ("domain", .str domain.text)]
  | .released id => [("instance", .str id.text)]
  | .dispatched _ receiver cls method owner depth =>
      [("receiver", .str receiver.text), ("class", .str cls), ("method", .str method.text),
        ("owner", .str owner), ("depth", .int depth)]

def encode (event : Event) : Json :=
  .obj [("level", .str event.level.text), ("message", .str event.message),
    ("fields", .obj event.fields)]

end Event

end Lineage
