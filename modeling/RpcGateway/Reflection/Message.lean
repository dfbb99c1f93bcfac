import RpcGateway.Reflection.Server
import RpcGateway.Wire
/-!
# Reflection messages

The messages that carry queries and responses, in their binary form. A client takes no message that is longer
than its limit: it gives the stream up as failed instead.
-/
namespace RpcGateway.Reflection

/-- Writes a text, but nothing for the empty one. -/
def textUnlessEmpty (number : Nat) (s : String) : Bytes :=
  if s.isEmpty then [] else Wire.textField number s

def Query.message : Query → Bytes
  | .file name => Wire.textField 3 name
  | .symbol name => Wire.textField 4 name
  | .services => Wire.textField 7 ""

def Response.field : Response → Bytes
  | .files contents => Wire.bytesField 4 (contents.flatMap (Wire.bytesField 1))
  | .extensions base numbers =>
    let packed := numbers.flatMap fun i => Wire.varint (i % 0x10000000000000000).toNat
    Wire.bytesField 5 (textUnlessEmpty 1 base ++ if packed.isEmpty then [] else Wire.bytesField 2 packed)
  | .services names =>
    Wire.bytesField 6 (names.flatMap fun name => Wire.bytesField 1 (textUnlessEmpty 1 name))
  | .error code message =>
    Wire.bytesField 7 ((if code = 0 then [] else Wire.intField 1 code) ++ textUnlessEmpty 2 message)
  | .empty => []

/-- The message of a response, which repeats the query that it answers. -/
def Response.message (query : Query) (response : Response) : Bytes :=
  Wire.bytesField 2 query.message ++ response.field

/-- The length of the longest message that a client takes. -/
def maxMessageLength : Nat := 0x400000

def tooLong (length : Nat) : Status :=
  ⟨.outOfRange, s!"Error, decoded message length too large: found {length} bytes, " ++
    s!"the limit is: {maxMessageLength} bytes"⟩

/-- What a client takes of what a server sends. -/
def Outcome.delivered (query : Query) : Outcome → Outcome
  | .response answer =>
    let length := (answer.message query).length
    if maxMessageLength < length then .failed (tooLong length) else .response answer
  | .failed status => .failed status
  | .finished => .finished

/-- A server as its clients see it. -/
def Server.delivered {σ : Type} (server : Server σ) : Server σ where
  opening := server.opening
  reads := server.reads
  reply := fun state stream query =>
    let (state, reply) := server.reply state stream query
    (state, { reply with outcome := reply.outcome.delivered query })

end RpcGateway.Reflection
