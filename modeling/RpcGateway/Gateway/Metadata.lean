import RpcGateway.Headers
/-!
# Forwarded metadata

The headers of a request that travel on as metadata of the call. Headers that belong to the exchange with
the gateway stay behind, and so do those that metadata cannot carry as text.
-/
namespace RpcGateway.Gateway

/-- The headers that belong to one exchange of messages. -/
def exchangeNames : List String :=
  ["host", "connection", "keep-alive", "te", "trailer", "transfer-encoding", "upgrade",
    "content-type", "content-length", "content-encoding", "accept-encoding", "user-agent",
    "x-grpc-web"]

def isForwarded (name : Header.Name) : Bool :=
  let cs := name.text.toList
  !exchangeNames.contains name.text && !"proxy-".toList.isPrefixOf cs &&
    !"grpc-".toList.isPrefixOf cs && !"-bin".toList.isSuffixOf cs

/-- The metadata of a call, in the order of the headers. -/
def metadataOf (headers : Headers) (targetName : Header.Name) : List (String × String) :=
  headers.toList.filterMap fun (name, value) =>
    if name ≠ targetName ∧ isForwarded name = true then
      value.text?.map fun text => (name.text, text)
    else none

end RpcGateway.Gateway
