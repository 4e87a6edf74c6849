import Lineage.Native.Basic
import Lineage.Text.Quoted

/-!
# A catalogue of native bodies

Ready-made native methods that a host can attach by name.  Together they use
every request that a native body can make, pass faults on, catch them, and fail
for reasons of their own.
-/

set_option autoImplicit false

namespace Lineage.Native

/-! ## Arguments -/

/-- The cause given when the arguments do not suit a body. -/
def badArguments : String := "bad native arguments"

def argument (args : List Value) (index : Nat) : Value := args.getD index .nil

def objectArgument (args : List Value) (index : Nat) : Program InstanceNo :=
  .orFail badArguments ((args[index]?).bind Value.object?)

def strArgument (args : List Value) (index : Nat) : Program String :=
  .orFail badArguments ((args[index]?).bind Value.str?)

/-- Nil, false and zero count as false, and so does nothing at all. -/
def isTruthy : Value → Bool
  | .nil => false
  | .bool b => b
  | .int n => n != 0
  | _ => true

/-- The display of the first argument, or the given text without arguments. -/
def textArgument (args : List Value) (absent : String) : String :=
  match args with
  | [] => absent
  | value :: _ => value.text

/-- The fault's kind, as bodies that catch faults report it. -/
def caught (label : String) (fault : Fault) : String := label ++ " " ++ fault.kind

/-! ## Bodies without requests -/

def echo : Native := fun _ args => .done (argument args 0)

def argc : Native := fun _ args => .done (.int (Int64.ofNat args.length))

def join : Native := fun _ args => .done (.str (",".intercalate (args.map Value.text)))

def sum (total : Int64) : List Value → Program Value
  | [] => .done (.int total)
  | .int n :: rest =>
      let exact := total.toInt + n.toInt
      if Int64.minValue.toInt ≤ exact ∧ exact ≤ Int64.maxValue.toInt then sum (total + n) rest
      else .fail "overflow"
  | other :: _ => .fail ("cannot add " ++ other.kind.text)

def add : Native := fun _ args => sum 0 args

def debug : Native := fun view _ =>
  .done (.str ("CallFrame \x7b receiver: InstanceId(" ++ toString view.receiver
    ++ "), method: Signature \x7b name: " ++ Text.quoted view.signature.name
    ++ ", arity: " ++ toString view.signature.arity
    ++ " \x7d, owner: " ++ Text.quoted view.owner
    ++ ", depth: " ++ toString view.depth ++ " \x7d"))

def fail : Native := fun _ args => .fail (textArgument args "sensor offline")

/-- A failure inside another; only the outer cause is shown. -/
def failInContext : Native := fun _ _ => .fail "outer context"

/-- End with a fault of the engine that the host makes up. -/
def raise : Native := fun _ args => do
  let cls ← strArgument args 0
  .raise (.unknownClass cls)

/-! ## Fields and instances -/

/-- Tell the receiver's name, with the declaring class and the depth. -/
def describe : Native := fun view args => do
  let name ← Program.request (.read view.receiver "name")
  return .str (view.owner ++ ":" ++ name.text ++ ":" ++ (argument args 0).text
    ++ "@" ++ toString view.depth)

def info : Native := fun view _ => do
  let domain ← Program.request .domain
  return .str ("|".intercalate [InstanceNo.text view.receiver, view.signature.text, view.owner,
    toString view.depth, domain.text])

def spawn : Native := fun _ args => do
  let domain ← match argument args 1 with
    | .nil => Program.done none
    | .bool true => .done (some Domain.managed)
    | .bool false => .done (some Domain.unmanaged)
    | _ => .fail badArguments
  let cls ← strArgument args 0
  let id ← Program.request (.allocate cls domain)
  return .object id

def get : Native := fun _ args => do
  let target ← objectArgument args 0
  let field ← strArgument args 1
  Program.request (.read target field)

def set : Native := fun _ args => do
  let target ← objectArgument args 0
  let field ← strArgument args 1
  let _ ← Program.request (.write target field (argument args 2))
  return .nil

/-- Add to an integer field of the receiver; the sum wraps around. -/
def bump : Native := fun view args => do
  let field ← strArgument args 0
  let held ← Program.request (.read view.receiver field)
  let old ← Program.orFail badArguments held.int?
  let step ← Program.orFail badArguments (argument args 1).int?
  let _ ← Program.request (.write view.receiver field (.int (old + step)))
  return .int (old + step)

/-! ## Calls -/

def call : Native := fun _ args => do
  let target ← objectArgument args 0
  let method ← strArgument args 1
  Program.request (.invoke target method (args.drop 2))

def callSuper : Native := fun _ args => do
  let method ← strArgument args 0
  Program.request (.invokeSuper method (args.drop 1))

/-- Call, and tell the kind of a fault instead of passing it on. -/
def catchFault : Native := fun _ args => do
  let target ← objectArgument args 0
  let method ← strArgument args 1
  match ← Program.attempt (.invoke target method (args.drop 2)) with
  | .ok value => return value
  | .error fault => return .str (caught "caught" fault)

def branch : Native := fun view args => do
  let method ← strArgument args (if isTruthy (argument args 0) then 1 else 2)
  Program.request (.invoke view.receiver method [])

/-- Call itself with one less until zero is reached. -/
def countdown : Native := fun view args => do
  let count ← Program.orFail badArguments (argument args 0).int?
  if 0 < count then
    Program.request (.invoke view.receiver view.signature.name [.int (count - 1)])
  else
    return .str ("bottom@" ++ toString view.depth)

def missing : Native := fun view _ =>
  Program.request (.invoke view.receiver "nothing" [])

/-- The same call, with a fault turned into a failure of the body's own. -/
def missingAsText : Native := fun view _ => do
  match ← Program.attempt (.invoke view.receiver "nothing" []) with
  | .ok value => return value
  | .error fault => .fail (caught "wrapped:" fault)

/-- The catalogue.  A fault keeps its identity under added context, so
`missing_ctx` is the same body as `missing`. -/
def catalogue : List (String × Native) := [
  ("echo", echo), ("argc", argc), ("join", join), ("add", add), ("debug", debug),
  ("fail", fail), ("fail_ctx", failInContext), ("raise", raise), ("describe", describe),
  ("info", info), ("spawn", spawn), ("get", get), ("set", set), ("bump", bump),
  ("call", call), ("super", callSuper), ("catch", catchFault), ("branch", branch),
  ("countdown", countdown), ("missing", missing), ("missing_ctx", missing),
  ("missing_str", missingAsText)]

def ofName? (name : String) : Option Native := catalogue.lookup name

end Lineage.Native
