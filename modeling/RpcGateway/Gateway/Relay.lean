import RpcGateway.Gateway.Settings
import RpcGateway.Gateway.Failure
import RpcGateway.Network
/-!
# Relayed calls

A call that is not in the web protocol is passed on to its target as it is, and so is the answer. Only the
address changes: the target's path, or a fixed one if it has none, goes in front of the method.
-/
namespace RpcGateway.Gateway

def defaultPath : String := "/twirp"

/-- The text of the address to which a method is relayed. -/
def relayAddress (target : Target) (method : List Char) (query : Option (List Char)) : List Char :=
  (target.origin ++ target.path.getD defaultPath).toList ++
    '/' :: method.dropWhile (· == '/') ++
    match query with
    | some query => '?' :: query
    | none => []

def relayUri (target : Target) (method : List Char) (query : Option (List Char)) :
    Except Failure Uri :=
  let address := relayAddress target method query
  (Uri.ofText address).mapError fun reason =>
    .relaySetup s!"invalid upstream URI '{String.ofList address}': {reason.message}"

/-- The host header of a request to an address, which leaves out the usual number of the scheme. -/
def hostText (uri : Uri) : String :=
  match uri.authority with
  | none => ""
  | some authority =>
    let usual := if uri.scheme = some "https".toList then Target.securePort else 80
    match authority.port? with
    | none => String.ofList authority.host
    | some port =>
      if port = usual then String.ofList authority.host
      else s!"{String.ofList authority.host}:{port}"

/-- The request as it is relayed to an address. -/
def relayed (targetName : Header.Name) (uri : Uri) (request : Http.Request) : Http.Request :=
  let headers := ((request.headers.erase Header.host).erase targetName).insert Header.host
    (.ofText (hostText uri))
  let size := toString request.body.bytes.length
  let headers :=
    if request.body.bytes.isEmpty || (headers.get? Header.contentLength).isSome then headers
    else headers.insert Header.contentLength (.ofText size)
  { request with target := uri.target, headers }

/-- Passes a request on to a site, within a time for connecting and answering together. -/
def sendOn (link : Link Site) (limit : Duration) (request : Http.Request) :
    Except Failure Http.Response := do
  match link with
  | .refused => throw (.relay .connect)
  | .reached site delay =>
    if limit.nanoseconds < delay.nanoseconds then throw (.relayTimeout limit)
    if request.body.failure.isSome then throw (.relay .send)
    let (response, answering) := site request
    if limit.nanoseconds < delay.nanoseconds + answering.nanoseconds then throw (.relayTimeout limit)
    return response

def relayCall (settings : Settings) (find : Uri → Link Site) (target : Target) (method : List Char)
    (request : Http.Request) : Except Failure Http.Response := do
  let uri ← relayUri target method request.target.query
  sendOn (find uri) settings.timeout (relayed settings.targetName uri request)

end RpcGateway.Gateway
