/-!
# URI errors

Why a text is refused as a URI, or as one of its parts.
-/
namespace RpcGateway.Uri

inductive Error where
  | character
  | authority
  | format
  | tooLong
  | emptyText
  | schemeTooLong
  deriving DecidableEq, Repr

def Error.message : Error → String
  | .character => "invalid uri character"
  | .authority => "invalid authority"
  | .format => "invalid format"
  | .tooLong => "uri too long"
  | .emptyText => "empty string"
  | .schemeTooLong => "scheme too long"

end RpcGateway.Uri
