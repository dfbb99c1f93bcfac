import RpcGateway.Net.Address
import RpcGateway.Text.Cut
/-!
# Socket addresses

An address and the number of a port, as a server listens on it: `127.0.0.1:8080` or `[::1]:8080`. An address
of version 6 may carry the number of a network interface.
-/
namespace RpcGateway.Net

inductive SocketAddress where
  | version4 (address : Address4) (port : Nat)
  | version6 (address : Address6) (zone port : Nat)
  deriving DecidableEq, Repr

/-- Reads digits alone, as a number up to `bound`. -/
def digits? (bound : Nat) (cs : List Char) : Option Nat :=
  match Numeral.magnitude bound .tooLarge cs with
  | .ok n => some n
  | .error _ => none

namespace SocketAddress

def maxZone : Nat := 0xFFFFFFFF

/-- Reads what stands in brackets: an address of version 6, and the number of an interface after a percent
sign. -/
def bracketed? (cs : List Char) : Option (Address6 × Nat) :=
  match Cut.around? '%' cs with
  | none => (Address6.ofText? cs).map (·, 0)
  | some (address, zone) => do return (← Address6.ofText? address, ← digits? maxZone zone)

def ofText? : List Char → Option SocketAddress
  | '[' :: rest =>
    match Cut.around? ']' rest with
    | some (inside, ':' :: port) => do
      let (address, zone) ← bracketed? inside
      return .version6 address zone (← digits? Numeral.maxWord16 port)
    | _ => none
  | cs => do
    let (address, port) ← Cut.around? ':' cs
    return .version4 (← Address4.ofText? address) (← digits? Numeral.maxWord16 port)

def text : SocketAddress → String
  | .version4 address port => s!"{address.text}:{port}"
  | .version6 address zone port =>
    let zoneText := if zone = 0 then "" else s!"%{zone}"
    s!"[{address.text}{zoneText}]:{port}"

end SocketAddress

end RpcGateway.Net
