import RpcGateway.Text.Blank
import RpcGateway.Web.Frame
import RpcGateway.Web.Trailers
/-!
# Bodies

Requests and answers of the web protocol, in binary or as one Base64 text. A request may leave the frame
out: no message begins with a zero byte, so a body that does begins with a frame.
-/
namespace RpcGateway.Web

inductive Encoding where
  | binary
  | text
  deriving DecidableEq, Repr

namespace Encoding

def contentType : Encoding → String
  | .binary => "application/grpc-web"
  | .text => "application/grpc-web-text"

/-- A content type without its parameters, in lower case. -/
def essence (value : String) : List Char :=
  (Blank.trim (value.toList.takeWhile (· ≠ ';'))).map Char.toLower

def ofContentType? (value : String) : Option Encoding :=
  if Encoding.text.contentType.toList.isPrefixOf (essence value) then some .text
  else if Encoding.binary.contentType.toList.isPrefixOf (essence value) then some .binary
  else none

end Encoding

/-- The blanks that may stand around a Base64 body. -/
def isBodyBlank (b : UInt8) : Bool :=
  b == 0x20 || b == 0x09 || b == 0x0A || b == 0x0C || b == 0x0D

/-- The payload of a binary body: that of the one frame it consists of, or the body itself. -/
def unframe (body : Bytes) : Except BodyError Bytes :=
  match body with
  | 0x00 :: a :: b :: c :: d :: rest =>
    let declared := declaredLength a b c d
    if rest.length < declared then .error (.shortPayload declared rest.length)
    else if declared < rest.length then .error (.surplus declared rest.length)
    else .ok rest
  | 0x00 :: _ => .error (.shortHead body.length)
  | 0x01 :: _ :: _ :: _ :: _ :: _ => .error .compressed
  | _ => .ok body

def requestPayload (encoding : Encoding) (body : Bytes) : Except BodyError Bytes :=
  match encoding with
  | .binary => unframe body
  | .text => do
    unframe (← (Base64.decode (Blank.trimBy isBodyBlank body)).mapError .base64)

/-- The frames of an answer: the message if there is one, and the trailers. -/
def answerFrames : Except Status Bytes → Except BodyError Bytes
  | .ok message => do
    return (← writeFrame plainFlag message) ++
      (← writeFrame trailersFlag (Trailers.block Status.success))
  | .error status => writeFrame trailersFlag (Trailers.block status)

def answerBody (encoding : Encoding) (result : Except Status Bytes) :
    Except BodyError Bytes := do
  let frames ← answerFrames result
  match encoding with
  | .binary => return frames
  | .text => return Base64.encode frames

end RpcGateway.Web
