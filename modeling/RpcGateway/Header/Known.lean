import RpcGateway.Header
/-!
# Known headers

The headers that the gateway reads or writes itself.
-/
namespace RpcGateway.Header

def contentType : Name := ⟨"content-type", by decide⟩

def contentLength : Name := ⟨"content-length", by decide⟩

def host : Name := ⟨"host", by decide⟩

def allow : Name := ⟨"allow", by decide⟩

/-- The identity of a request, which its response repeats. -/
def requestId : Name := ⟨"x-request-id", by decide⟩

/-- The header that names the target unless another is configured. -/
def defaultTarget : Name := ⟨"x-target", by decide⟩

end RpcGateway.Header
