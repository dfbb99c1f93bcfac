import RpcGateway.Call
/-!
# Sample backends

Two services to try calls against. The echo service sends back what it gets; the probe service reports
what arrived, and fails on request.
-/
namespace RpcGateway.Sample

def atOnce (result : Except Status Bytes) : Backend.Reply :=
  ⟨result, ⟨0⟩⟩

/-- The answer of a service that does not know a method. -/
def unknownMethod : Backend.Reply :=
  atOnce (.error ⟨.unimplemented, ""⟩)

/-- How long the slow method of the echo service takes. -/
def slowPause : Duration := .ofSeconds 2

/-- The header that the echo service can read back. -/
def tenantName : Header.Name := ⟨"x-tenant", by decide⟩

def echo (call : Call) : Backend.Reply :=
  let path := String.ofList call.path.shownPath
  if path = "/echo.Echo/Echo" then atOnce (.ok call.payload)
  else if path = "/echo.Echo/Fail" then atOnce (.error ⟨.notFound, "nothing here"⟩)
  else if path = "/echo.Echo/Slow" then ⟨.ok call.payload, slowPause⟩
  else if path = "/echo.Echo/Header" then
    atOnce (.ok (((call.metadata.get? tenantName).map (·.bytes)).getD []))
  else unknownMethod

/-- The headers that the probe service leaves out of its report. -/
def unreportedNames : List String :=
  ["te", "content-type", "user-agent", "content-length"]

def isBefore : Bytes → Bytes → Bool
  | [], _ => true
  | _ :: _, [] => false
  | a :: as, b :: bs => a < b || (a == b && isBefore as bs)

def report (metadata : Headers) : Bytes :=
  let lines := (metadata.toList.filter fun (name, _) => !unreportedNames.contains name.text).map
    fun (name, value) => bytesOf (name.text ++ ": ") ++ value.bytes ++ [0x0A]
  (lines.mergeSort isBefore).flatten

/-- The status that a payload asks for: the code in the first byte, then the message. A call that fails
with the code of success lacks its message. -/
def requestedStatus : Bytes → Status
  | [] => ⟨.unknown, ""⟩
  | b :: rest =>
    if b = 0 then ⟨.internal, "Missing response message."⟩
    else ⟨StatusCode.ofNumber b.toNat, lossyText rest⟩

def probe (method : String) (call : Call) : Backend.Reply :=
  if method = "Meta" then atOnce (.ok (report call.metadata))
  else if method = "Fail" then atOnce (.error (requestedStatus call.payload))
  else if method = "Len" then atOnce (.ok (bytesOf (toString call.payload.length)))
  else atOnce (.error ⟨.unimplemented, "no such probe"⟩)

def lastSegment (path : List Char) : String :=
  String.ofList (path.reverse.takeWhile (· ≠ '/')).reverse

def backend (call : Call) : Backend.Reply :=
  let path := call.path.shownPath
  let lead := "/probe.Probe/".toList
  if lead.isPrefixOf path && lead.length < path.length then probe (lastSegment path) call
  else echo call

end RpcGateway.Sample
