import RpcGateway.Text.Base64
/-!
# Frames

A body of the web protocol is a sequence of records: a flag byte, the length of the payload in four bytes
with the highest first, and the payload. The highest bit of the flag marks trailers, the lowest a
compressed payload.
-/
namespace RpcGateway.Web

inductive BodyError where
  | base64 (reason : Base64.Error)
  | shortHead (found : Nat)
  | shortPayload (declared available : Nat)
  | surplus (declared available : Nat)
  | compressed
  | tooLarge (size : Nat)
  deriving DecidableEq, Repr

def headerLength : Nat := 5

def BodyError.message : BodyError → String
  | .base64 reason => s!"Invalid base64 body: {reason.message}"
  | .shortHead found =>
    s!"Truncated frame header: expected {headerLength} bytes, found {found}"
  | .shortPayload declared available =>
    s!"Frame declares {declared} payload bytes but only {available} are available"
  | .surplus declared available =>
    s!"Frame declares {declared} payload bytes but the body carries {available}"
  | .compressed => "Compressed gRPC-Web frames are not supported"
  | .tooLarge size => s!"Payload of {size} bytes does not fit a 4-byte length prefix"

inductive Frame where
  | data (payload : Bytes)
  | trailers (payload : Bytes)
  deriving DecidableEq, Repr

def plainFlag : UInt8 := 0x00

def trailersFlag : UInt8 := 0x80

def marksTrailers (flag : UInt8) : Bool :=
  flag &&& 0x80 != 0

def marksCompressed (flag : UInt8) : Bool :=
  flag &&& 0x01 != 0

def lengthBytes (n : Nat) : Bytes :=
  [UInt8.ofNat (n / 0x1000000), UInt8.ofNat (n / 0x10000), UInt8.ofNat (n / 0x100), UInt8.ofNat n]

def declaredLength (a b c d : UInt8) : Nat :=
  ((a.toNat * 256 + b.toNat) * 256 + c.toNat) * 256 + d.toNat

theorem declaredLength_lengthBytes {n : Nat} (h : n < 0x100000000) :
    declaredLength (UInt8.ofNat (n / 0x1000000)) (UInt8.ofNat (n / 0x10000))
      (UInt8.ofNat (n / 0x100)) (UInt8.ofNat n) = n := by
  simp only [declaredLength, UInt8.toNat_ofNat']
  omega

def writeFrame (flag : UInt8) (payload : Bytes) : Except BodyError Bytes :=
  if payload.length < 0x100000000 then .ok (flag :: lengthBytes payload.length ++ payload)
  else .error (.tooLarge payload.length)

/-- Appends a frame to a buffer, which stays as it was if the payload is too large. -/
def appendFrame (buffer : Bytes) (flag : UInt8) (payload : Bytes) : Bytes × Except BodyError Unit :=
  match writeFrame flag payload with
  | .ok record => (buffer ++ record, .ok ())
  | .error e => (buffer, .error e)

/-- Appends frames one after the other, up to the first that is too large. -/
def appendFrames : (buffer : Bytes) → List (UInt8 × Bytes) → Bytes × Except BodyError Unit
  | buffer, [] => (buffer, .ok ())
  | buffer, (flag, payload) :: rest =>
    match appendFrame buffer flag payload with
    | (buffer, .ok ()) => appendFrames buffer rest
    | (buffer, .error e) => (buffer, .error e)

/-- Reads a body as a sequence of records and stops at the first malformed one. -/
def readFrames : Bytes → Except BodyError (List Frame)
  | [] => .ok []
  | flag :: a :: b :: c :: d :: rest =>
    let declared := declaredLength a b c d
    if rest.length < declared then .error (.shortPayload declared rest.length)
    else if marksTrailers flag then
      return .trailers (rest.take declared) :: (← readFrames (rest.drop declared))
    else if marksCompressed flag then .error .compressed
    else return .data (rest.take declared) :: (← readFrames (rest.drop declared))
  | bs => .error (.shortHead bs.length)
termination_by bs => bs.length
decreasing_by all_goals simp only [List.length_cons, List.length_drop]; omega

end RpcGateway.Web
