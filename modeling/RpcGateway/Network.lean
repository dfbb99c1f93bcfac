import RpcGateway.Call
import RpcGateway.Http.Message
import RpcGateway.Link
import RpcGateway.Reflection.Server
/-!
# Networks

All that can be reached: peers, which answer calls and tell of their schema, and sites, which answer plain
requests. A reflection server may change with what it is asked, so its state is kept beside the network.
-/
namespace RpcGateway

structure Peer (σ : Type) where
  backend : Backend
  reflection : Reflection.Server σ

abbrev Site := Http.Request → Http.Response × Duration

/-- What is found at the addresses. `patience` is the number of names after which a discovery that still
has not ended runs out of time. -/
structure Network (σ : Type) where
  peer : Endpoint → Link (Peer σ)
  site : Uri → Link Site
  patience : Nat

def Network.silent {σ : Type} : Network σ :=
  ⟨fun _ => .refused, fun _ => .refused, 0⟩

end RpcGateway
