import RpcGateway.Gateway.Failure
import RpcGateway.Web.Body
/-!
# Protocols

What the headers of a request decide: the target it is meant for, and the protocol by which it is answered.
-/
namespace RpcGateway.Gateway

/-- How a call is carried to its target: as a call in a frame of the web protocol, or as it is. -/
inductive Protocol where
  | web (encoding : Web.Encoding)
  | twirp
  deriving DecidableEq, Repr

def Protocol.ofHeaders (headers : Headers) : Protocol :=
  match ((headers.get? Header.contentType).bind (·.text?)).bind Web.Encoding.ofContentType? with
  | some encoding => .web encoding
  | none => .twirp

def targetOf (headers : Headers) (name : Header.Name) : Except Failure Target := do
  match headers.get? name with
  | none => throw (.noTarget name)
  | some value =>
    match value.text? with
    | none => throw (.illegibleTarget name)
    | some address => (Target.ofAddress address).mapError .badTarget

end RpcGateway.Gateway
