import RpcGateway.Call.Path
import RpcGateway.Duration
import RpcGateway.Headers
import RpcGateway.Status
/-!
# Calls

A call sends one message to a method of a backend and gets one message or a status back. The messages are
bytes to the caller and never looked into.
-/
namespace RpcGateway

structure Call where
  path : Uri.PathAndQuery
  metadata : Headers
  payload : Bytes
  deriving DecidableEq, Repr

/-- What a backend answers, and how long that takes. -/
structure Backend.Reply where
  result : Except Status Bytes
  delay : Duration

abbrev Backend := Call → Backend.Reply

/-- A connection to a backend, which may turn out to be down. -/
inductive Channel where
  | down (reason : String)
  | ready (backend : Backend)

/-- Why a call failed before the backend answered it. -/
inductive CallError where
  | notReady (reason : String)
  | invalidMethod (method : String) (reason : Uri.Error)
  | invalidKey (key : String)
  | invalidValue (key : String)
  | timeout (limit : Duration)
  deriving DecidableEq, Repr

def CallError.message : CallError → String
  | .notReady reason => s!"Internal error, the client was not ready: '{reason}'"
  | .invalidMethod method reason => s!"Invalid method path '{method}': '{reason.message}'"
  | .invalidKey key =>
    s!"Invalid metadata (header) key '{key}': 'invalid gRPC metadata key name'"
  | .invalidValue key =>
    s!"Invalid metadata (header) value for key '{key}': 'failed to parse metadata value'"
  | .timeout limit => s!"The call did not complete within {limit.text}"

namespace Call

/-- Whether a header name is one of binary metadata. -/
def isBinaryName (name : Header.Name) : Bool :=
  "-bin".toList.isSuffixOf name.text.toList

def readKey (key : String) : Except CallError Header.Name :=
  match Header.Name.ofText? key with
  | some name => if isBinaryName name then .error (.invalidKey key) else .ok name
  | none => .error (.invalidKey key)

def readValue (key value : String) : Except CallError Header.Value :=
  match Header.Value.ofBytes? (bytesOf value) with
  | some value => .ok value
  | none => .error (.invalidValue key)

/-- Adds pairs to metadata; a later pair takes the place of earlier ones of its key. -/
def addMetadata : Headers → List (String × String) → Except CallError Headers
  | metadata, [] => .ok metadata
  | metadata, (key, value) :: rest => do
    let name ← readKey key
    let value ← readValue key value
    addMetadata (metadata.insert name value) rest

/-- The names that belong to the call itself and are never sent as metadata. -/
def reservedNames : List String :=
  ["te", "content-type", "grpc-message", "grpc-message-type", "grpc-status"]

def sentMetadata (metadata : Headers) : Headers :=
  metadata.filter fun name => !reservedNames.contains name.text

def prepare (method : String) (payload : Bytes) (headers : List (String × String)) :
    Except CallError Call := do
  let path ← (pathOf method).mapError (.invalidMethod method)
  let metadata ← addMetadata .empty headers
  return ⟨path, sentMetadata metadata, payload⟩

/-- Waits for a reply. One that comes at the very end of the time is taken. -/
def await (limit : Duration) (reply : Backend.Reply) : Except CallError (Except Status Bytes) :=
  if limit.nanoseconds < reply.delay.nanoseconds then .error (.timeout limit) else .ok reply.result

/-- What came of a call that may fail with errors of some type: what was sent to the backend, and the
outcome. -/
structure Attempt (ε : Type) where
  sent : List Call
  outcome : Except ε (Except Status Bytes)

def make (channel : Channel) (method : String) (payload : Bytes)
    (headers : List (String × String)) (limit : Duration) : Attempt CallError :=
  match prepare method payload headers with
  | .error e => ⟨[], .error e⟩
  | .ok call =>
    match channel with
    | .down reason => ⟨[], .error (.notReady reason)⟩
    | .ready backend => ⟨[call], await limit (backend call)⟩

end Call

end RpcGateway
