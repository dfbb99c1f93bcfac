import RpcGateway.Gateway.Description
import RpcGateway.Gateway.Relay
import RpcGateway.Gateway.WebCall
import RpcGateway.Text.Percent
/-!
# Routing

Answers every request that comes in: calls below `/target/`, descriptions, and the question whether the
gateway is up. Each request has an identity, which its response repeats.
-/
namespace RpcGateway.Gateway

/-- What a request asks the gateway for. A call is named by what follows in the path, as it was sent. -/
inductive Route where
  | call (method : List Char)
  | describe
  | health
  deriving DecidableEq, Repr

def Route.ofPath? (path : List Char) : Option Route :=
  match Cut.after? "/target/".toList path with
  | some (c :: rest) => some (.call (c :: rest))
  | _ =>
    if path = "/describe".toList then some .describe
    else if path = "/healthz".toList then some .health
    else none

/-- The text of a part of a path, without its escapes. -/
def unescaped? (part : List Char) : Option (List Char) :=
  Utf8.decode? (Percent.decode (Utf8.encode part))

/-- The response to a path whose escapes spell no text. -/
def unreadablePath : Http.Response :=
  .ofText 400 "Invalid URL: Invalid UTF-8 in `method`"

/-- The response to a method that a resource does not have. -/
def wrongMethod : Http.Response :=
  { Http.Response.bare 405 with
    headers := Headers.empty.insert Header.allow (.ofText "GET,HEAD") }

def responseOf : Except Failure Http.Response → Http.Response
  | .ok response => response
  | .error e => e.response

/-- What came of a request: the state afterwards, the calls that were made for it, and the response. -/
structure Answered (σ : Type) where
  state : State σ
  calls : List Call
  response : Http.Response

variable {σ : Type}

def answerCall (settings : Settings) (network : Network σ) (method : List Char)
    (request : Http.Request) : Handled :=
  match targetOf request.headers settings.targetName with
  | .error e => ⟨[], .error e⟩
  | .ok target =>
    match Protocol.ofHeaders request.headers with
    | .twirp => ⟨[], relayCall settings network.site target method request⟩
    | .web encoding =>
      let find := fun endpoint => (network.peer endpoint).map Peer.backend
      webCall settings find target (String.ofList method) encoding request

def isRead (request : Http.Request) : Bool :=
  request.method == "GET" || request.method == "HEAD"

def follow (settings : Settings) (network : Network σ) (directory : String) (state : State σ)
    (request : Http.Request) : Route → Answered σ
  | .call part =>
    match unescaped? part with
    | none => ⟨state, [], unreadablePath⟩
    | some method =>
      let handled := answerCall settings network method request
      ⟨state, handled.calls, responseOf handled.result⟩
  | .describe =>
    if isRead request then
      let (state, result) := describeTarget settings network directory state request.headers
      ⟨state, [], responseOf result⟩
    else ⟨state, [], wrongMethod⟩
  | .health => ⟨state, [], if isRead request then .ofText 200 "ok" else wrongMethod⟩

/-- The response as it goes out: with the size of its body, and without the body if only the headers were
asked for. -/
def finish (request : Http.Request) (response : Http.Response) : Http.Response :=
  let response := response.withLength
  if request.method = "HEAD" then response.withoutBody else response

/-- The headers with an identity, a fresh one unless there is one already. -/
def identified (fresh : Header.Value) (headers : Headers) : Headers :=
  if (headers.get? Header.requestId).isSome then headers
  else headers.insert Header.requestId fresh

/-- What a request gets that nobody else has: an identity, and the name of a directory. -/
structure Fresh where
  id : Header.Value
  directory : String
  deriving DecidableEq, Repr

def answer (settings : Settings) (network : Network σ) (fresh : Fresh) (state : State σ)
    (request : Http.Request) : Answered σ :=
  let request := { request with headers := identified fresh.id request.headers }
  let id := (request.headers.get? Header.requestId).getD fresh.id
  let served : Answered σ :=
    match Route.ofPath? request.target.shownPath with
    | none => ⟨state, [], .bare 404⟩
    | some route =>
      let served := follow settings network fresh.directory state request route
      { served with response := finish request served.response }
  let response := served.response
  { served with response := { response with headers := identified id response.headers } }

end RpcGateway.Gateway
