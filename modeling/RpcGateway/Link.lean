import RpcGateway.Endpoint
/-!
# Links

What is found at an address on the network: nothing, or a peer that takes some time to connect to. Peers
are left open; they may be backends, reflection servers or sites.
-/
namespace RpcGateway

inductive Link (α : Type) where
  | refused
  | reached (peer : α) (delay : Duration)

namespace Link

/-- The same link to a part or a view of the peer. -/
def map {α β : Type} (f : α → β) : Link α → Link β
  | .refused => .refused
  | .reached peer delay => .reached (f peer) delay

end Link

/-- Connects to a target within a time, and tells the peer and the time that went by. -/
def connect {α : Type} (find : Endpoint → Link α) (target : Target) (limit : Duration) :
    Except LinkError (α × Duration) := do
  match find (← Endpoint.ofTarget target) with
  | .refused => throw (.failed target.raw)
  | .reached peer delay =>
    if limit.nanoseconds < delay.nanoseconds then throw (.timeout target.raw limit)
    return (peer, delay)

end RpcGateway
