import RpcGateway.Gateway.Settings
import RpcGateway.Gateway.Failure
import RpcGateway.Gateway.Metadata
import RpcGateway.Web.Body
/-!
# Calls of the web protocol

Takes the message out of a request, makes the call, and puts the answer into a body of the same encoding. A
status of the backend is an answer like any other; what fails before the backend answers is an error of the
gateway, and no body is written for it.
-/
namespace RpcGateway.Gateway

/-- Reads a request body of at most `limit` bytes. -/
def bodyWithin (limit : Nat) (body : Http.Body) : Except Failure Bytes :=
  if limit < body.bytes.length then .error (.longBody limit)
  else match body.failure with
    | some reason => .error (.brokenBody reason)
    | none => .ok body.bytes

def readPayload (settings : Settings) (encoding : Web.Encoding) (request : Http.Request) :
    Except Failure Bytes := do
  let body ← bodyWithin settings.maxBody request.body
  (Web.requestPayload encoding body).mapError .content

/-- The response that carries the answer of a backend. -/
def answerResponse (encoding : Web.Encoding) (answer : Except Status Bytes) :
    Except Failure Http.Response := do
  let body ← (Web.answerBody encoding answer).mapError .content
  return (Http.Response.ofBytes 200 encoding.contentType body).withLength

/-- What came of a request: the calls that were made for it, and the response. -/
structure Handled where
  calls : List Call
  result : Except Failure Http.Response

/-- Answers a call of the web protocol. -/
def webCall (settings : Settings) (find : Endpoint → Link Backend) (target : Target) (method : String)
    (encoding : Web.Encoding) (request : Http.Request) : Handled :=
  match readPayload settings encoding request with
  | .error e => ⟨[], .error e⟩
  | .ok payload =>
    let metadata := metadataOf request.headers settings.targetName
    let attempt := Call.dial find target method payload metadata settings.timeout
    ⟨attempt.sent, (attempt.outcome.mapError .call).bind (answerResponse encoding)⟩

end RpcGateway.Gateway
