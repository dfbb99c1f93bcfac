import RpcGateway.Cli.Error
import RpcGateway.Header
import RpcGateway.Net.Socket
import RpcGateway.Target
/-!
# Values on a command line

How the values of options and arguments are read.
-/
namespace RpcGateway.Cli

/-- Reads the value of an option or argument that is known by a name. -/
abbrev ValueReader (β : Type) := (name value : String) → Except UsageError β

inductive LogStyle where
  | text
  | json
  deriving DecidableEq, Repr

def readLogStyle : ValueReader LogStyle := fun name value =>
  if value = "text" then .ok .text
  else if value = "json" then .ok .json
  else .error (.unknownChoice name value)

/-- Reads a path, which is anything but an empty text. -/
def readPath : ValueReader String := fun name value =>
  if value.isEmpty then .error (.missingValue name) else .ok value

def readNumber : ValueReader Nat := fun name value =>
  (Numeral.readNat Numeral.maxWord64 value.toList).mapError fun e =>
    .invalidValue name value e.message

/-- Reads a number of 64 bits that is not zero. -/
def readPositive : ValueReader Nat := fun name value => do
  let n ← readNumber name value
  if n = 0 then throw (.invalidValue name value s!"{n} is not in 1..{Numeral.maxWord64}")
  return n

def readListen : ValueReader Net.SocketAddress := fun name value =>
  match Net.SocketAddress.ofText? value.toList with
  | some address => .ok address
  | none => .error (.invalidValue name value "invalid socket address syntax")

def readTarget : ValueReader Target := fun name value =>
  (Target.ofAddress value).mapError fun e => .invalidValue name value e.message

/-- Reads a header name, around which blanks may stand. -/
def readHeaderName : ValueReader Header.Name := fun name value =>
  match Header.Name.ofText? (Blank.trimmed value) with
  | some header => .ok header
  | none =>
    .error (.invalidValue name value s!"Invalid header name '{value}': {Header.nameProblem}")

/-- Reads a header: a key and a value on either side of the first colon. -/
def readHeader : ValueReader (String × String) := fun name value =>
  match Cut.around? ':' value.toList with
  | some (key, text) => .ok (String.ofList (Blank.trim key), String.ofList (Blank.trim text))
  | none => .error (.invalidValue name value "Format must be 'key:value'")

/-- Reads a service and a method on either side of the first slash; slashes in front are dropped. -/
def readMethod : ValueReader String := fun name value =>
  match Cut.around? '/' (value.toList.dropWhile (· == '/')) with
  | none =>
    .error (.invalidValue name value
      s!"Invalid endpoint format: '{value}'. Expected 'package.Service/Method'")
  | some (service, method) =>
    if (Blank.trim service).isEmpty || (Blank.trim method).isEmpty then
      .error (.invalidValue name value "Service and Method names cannot be empty")
    else .ok (String.ofList (service ++ '/' :: method))

end RpcGateway.Cli
