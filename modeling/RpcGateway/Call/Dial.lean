import RpcGateway.Call
import RpcGateway.Link
/-!
# Dialled calls

Connects to a target and makes one call there. One limit of time covers both, so a call that follows a slow
connection has less time left.
-/
namespace RpcGateway

/-- Why a dialled call failed before the backend answered it. -/
inductive DialError where
  | link (reason : LinkError)
  | call (reason : CallError)
  deriving DecidableEq, Repr

namespace DialError

def message : DialError → String
  | .link reason => reason.message
  | .call reason => reason.message

def isOutOfTime : DialError → Bool
  | .link (.timeout _ _) => true
  | .call (.timeout _) => true
  | _ => false

end DialError

def Backend.after (delay : Duration) (backend : Backend) : Backend :=
  fun call =>
    let reply := backend call
    { reply with delay := ⟨delay.nanoseconds + reply.delay.nanoseconds⟩ }

namespace Call

/-- Connects to a target and makes one call. -/
def dial (find : Endpoint → Link Backend) (target : Target) (method : String) (payload : Bytes)
    (headers : List (String × String)) (limit : Duration) : Attempt DialError :=
  match connect find target limit with
  | .error e => ⟨[], .error (.link e)⟩
  | .ok (backend, delay) =>
    let attempt := make (.ready (backend.after delay)) method payload headers limit
    ⟨attempt.sent, attempt.outcome.mapError .call⟩

end Call

end RpcGateway
