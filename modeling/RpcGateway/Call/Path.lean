import RpcGateway.Uri.PathAndQuery
/-!
# Method paths

The name of a method as the path of a call: a slash is put in front where there is none, and the rest is
read as it stands.
-/
namespace RpcGateway.Call

def rooted (method : List Char) : List Char :=
  if method.head? = some '/' then method else '/' :: method

def pathOf (method : String) : Except Uri.Error Uri.PathAndQuery :=
  let cs := rooted method.toList
  if Uri.isTooLong cs then .error .tooLong else Uri.PathAndQuery.ofText cs

end RpcGateway.Call
