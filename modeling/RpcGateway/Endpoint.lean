import RpcGateway.Duration
import RpcGateway.Target
import RpcGateway.Uri.HostName
/-!
# Endpoints

What a connection is opened to: the origin of a target, and the name its certificate has to carry if the
connection is encrypted.
-/
namespace RpcGateway

/-- Why no connection could be opened to a target. -/
inductive LinkError where
  | badOrigin (target : String)
  | tls (target : String)
  | failed (target : String)
  | timeout (target : String) (limit : Duration)
  deriving DecidableEq, Repr

def LinkError.message : LinkError → String
  | .badOrigin target => s!"Invalid endpoint for target '{target}': invalid URI"
  | .tls target => s!"Failed to configure TLS for target '{target}': transport error"
  | .failed target => s!"Failed to connect to '{target}': transport error"
  | .timeout target limit => s!"Timed out after {limit.text} while connecting to '{target}'"

structure Endpoint where
  uri : Uri
  isEncrypted : Bool
  deriving DecidableEq, Repr

namespace Endpoint

def withoutBrackets (host : List Char) : List Char :=
  if host.head? = some '[' ∧ host.getLast? = some ']' then host.tail.dropLast else host

def ofTarget (t : Target) : Except LinkError Endpoint :=
  match Uri.ofText t.origin.toList with
  | .error _ => .error (.badOrigin t.raw)
  | .ok uri =>
    if t.isEncrypted && !HostName.isValid (withoutBrackets t.host.toList) then .error (.tls t.raw)
    else .ok ⟨uri, t.isEncrypted⟩

end Endpoint

end RpcGateway
