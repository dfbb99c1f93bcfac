import RpcGateway.Header.Known
import RpcGateway.Headers
import RpcGateway.Uri.PathAndQuery
/-!
# Requests and responses

The messages of HTTP, without their transport. A request body is what could be read of it, and why reading
on fails if it does.
-/
namespace RpcGateway.Http

structure Body where
  bytes : Bytes
  failure : Option String
  deriving DecidableEq, Repr

structure Request where
  method : String
  target : Uri.PathAndQuery
  headers : Headers
  body : Body
  deriving DecidableEq, Repr

structure Response where
  status : Nat
  headers : Headers
  body : Bytes
  deriving DecidableEq, Repr

namespace Response

def bare (status : Nat) : Response := ⟨status, .empty, []⟩

def ofBytes (status : Nat) (contentType : String) (body : Bytes) : Response :=
  ⟨status, Headers.empty.insert Header.contentType (.ofText contentType), body⟩

def plainText : String := "text/plain; charset=utf-8"

def ofText (status : Nat) (text : String) : Response :=
  ofBytes status plainText (bytesOf text)

/-- The response with the size of its body, unless it names one already. -/
def withLength (r : Response) : Response :=
  if (r.headers.get? Header.contentLength).isSome then r
  else
    let size := toString r.body.length
    { r with headers := r.headers.insert Header.contentLength (.ofText size) }

/-- The response to a request that asks for the headers alone. -/
def withoutBody (r : Response) : Response := { r with body := [] }

end Response

end RpcGateway.Http
