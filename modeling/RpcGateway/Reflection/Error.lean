import RpcGateway.Reflection.Server
import RpcGateway.Wire.Reader
/-!
# Reflection errors

Why a discovery failed.
-/
namespace RpcGateway.Reflection

inductive Error where
  | openFailed (status : Status)
  | streamFailed (status : Status)
  | streamEnded
  | notSent
  | server (code : Int) (message : String)
  | unexpected (response : String)
  | decode (reason : Wire.ReadError)
  | namelessFile
  | timeout (limit : Duration)
  deriving DecidableEq, Repr

namespace Error

def message : Error → String
  | .openFailed status =>
    "Failed to start a stream request with the reflection server, reflection might not be " ++
      s!"supported: '{status.text}'"
  | .streamFailed status => s!"The server stream returned an error status: '{status.text}'"
  | .streamEnded => "Reflection stream closed unexpectedly"
  | .notSent => "Internal error: Failed to send request to stream"
  | .server code message => s!"Server returned reflection error code {code}: {message}"
  | .unexpected response => s!"Protocol error: Received unexpected response type: {response}"
  | .decode reason => s!"Failed to decode FileDescriptorProto: {reason.message}"
  | .namelessFile => "Server returned a FileDescriptorProto without a file name"
  | .timeout limit => s!"Reflection discovery did not complete within {limit.text}"

/-- Whether the server answered that it does not have what it was asked for. -/
def saysNotFound : Error → Bool
  | .server code _ => code == (StatusCode.notFound.number : Int)
  | .streamFailed status => status.code == .notFound
  | _ => false

/-- Whether the server answered with an error on a stream that goes on. -/
def isInBand : Error → Bool
  | .server _ _ => true
  | _ => false

end Error

end RpcGateway.Reflection
