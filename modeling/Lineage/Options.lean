import Lineage.Json.Record

/-!
# Dispatcher options
-/

set_option autoImplicit false

namespace Lineage

structure Options where
  /-- How many method calls may be nested; the host's own call counts as one. -/
  maxCallDepth : Nat := 256
  /-- Log every dispatch one level higher. -/
  traceCalls : Bool := false
  deriving DecidableEq, Repr, Inhabited

namespace Options

def keys : List String := ["max_call_depth", "trace_calls"]

def decode (json : Json) : Option Options := do
  let record ← json.record? keys
  let maxCallDepth ← record.optional "max_call_depth" 256 Json.count?
  let traceCalls ← record.optional "trace_calls" false Json.bool?
  return { maxCallDepth, traceCalls }

def encode (options : Options) : Json :=
  .obj [("max_call_depth", .int options.maxCallDepth), ("trace_calls", .bool options.traceCalls)]

end Options

end Lineage
