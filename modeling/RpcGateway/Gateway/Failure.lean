import RpcGateway.Call.Dial
import RpcGateway.Export
import RpcGateway.Http.Message
import RpcGateway.Reflection.Error
import RpcGateway.Web.Frame
/-!
# Gateway failures

Why the gateway cannot answer a request as asked, and the response that says so. A failure that a backend
reports itself is no failure of the gateway.
-/
namespace RpcGateway.Gateway

/-- How passing a request on to a site can fail: no connection, or a request that breaks off. -/
inductive RelayFailure where
  | connect
  | send
  deriving DecidableEq, Repr

def RelayFailure.message : RelayFailure → String
  | .connect => "client error (Connect)"
  | .send => "client error (SendRequest)"

/-- Why the gateway cannot answer a request as asked. -/
inductive Failure where
  | noTarget (header : Header.Name)
  | illegibleTarget (header : Header.Name)
  | badTarget (reason : Target.Error)
  | longBody (limit : Nat)
  | brokenBody (reason : String)
  | content (reason : Web.BodyError)
  | call (reason : DialError)
  | link (reason : LinkError)
  | reflection (reason : Reflection.Error)
  | relaySetup (reason : String)
  | relay (reason : RelayFailure)
  | relayTimeout (limit : Duration)
  | files (reason : ExportError)
  deriving DecidableEq, Repr

namespace Failure

def message : Failure → String
  | .noTarget header => s!"Missing '{header.text}' header with the target address"
  | .illegibleTarget header => s!"The '{header.text}' header is not valid text"
  | .badTarget reason => reason.message
  | .longBody limit => s!"Request body exceeds {limit} bytes"
  | .brokenBody reason => s!"Failed to read request body: {reason}"
  | .content reason => s!"Malformed gRPC-Web body: {reason.message}"
  | .call reason => reason.message
  | .link reason => reason.message
  | .reflection reason => s!"Reflection failed: {reason.message}"
  | .relaySetup reason => s!"Failed to build the upstream request: {reason}"
  | .relay reason => s!"Upstream request failed: {reason.message}"
  | .relayTimeout limit => s!"Upstream did not answer within {limit.text}"
  | .files reason => reason.message

def linkStatus : LinkError → Nat
  | .badOrigin _ => 400
  | .timeout _ _ => 504
  | .tls _ => 502
  | .failed _ => 502

def callStatus : CallError → Nat
  | .invalidMethod _ _ => 400
  | .invalidKey _ => 400
  | .invalidValue _ => 400
  | .timeout _ => 504
  | .notReady _ => 502

def status : Failure → Nat
  | .noTarget _ => 400
  | .illegibleTarget _ => 400
  | .badTarget _ => 400
  | .brokenBody _ => 400
  | .longBody _ => 413
  | .content (.tooLarge _) => 500
  | .content _ => 400
  | .call (.link reason) => linkStatus reason
  | .call (.call reason) => callStatus reason
  | .link reason => linkStatus reason
  | .reflection (.timeout _) => 504
  | .reflection _ => 502
  | .relayTimeout _ => 504
  | .relay _ => 502
  | .relaySetup _ => 500
  | .files _ => 500

def response (e : Failure) : Http.Response :=
  .ofText e.status e.message

end Failure

end RpcGateway.Gateway
