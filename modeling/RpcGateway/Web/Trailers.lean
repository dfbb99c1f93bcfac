import RpcGateway.Status
import RpcGateway.Text.Blank
import RpcGateway.Text.Numeral
import RpcGateway.Text.Percent
/-!
# Trailer blocks

The lines `name: value` that carry the status of a call at the end of a body. The message is written with
percent escapes, so that it stays on its line.
-/
namespace RpcGateway.Web.Trailers

/-- The name of the line that holds the code. -/
def codeName : String := "grpc-status"

/-- The name of the line that holds the message. -/
def messageName : String := "grpc-message"

/-- The block of a status: two lines and an empty one. -/
def block (s : Status) : Bytes :=
  bytesOf s!"{codeName}: {s.code.number}\r\n{messageName}: " ++
    Percent.encode (bytesOf s.message) ++ bytesOf "\r\n\r\n"

/-- The lines of a text, ended by a carriage return and a line feed. -/
def lines : List Char → List (List Char)
  | [] => [[]]
  | '\r' :: '\n' :: rest => [] :: lines rest
  | c :: rest =>
    match lines rest with
    | [] => [[c]]
    | line :: more => (c :: line) :: more

/-- The name and the value of a line, if it has a colon. -/
def splitLine (line : List Char) : Option (List Char × List Char) :=
  match line.dropWhile (· ≠ ':') with
  | _ :: value => some (line.takeWhile (· ≠ ':'), value)
  | [] => none

def readMessage (value : List Char) : String :=
  lossyText (Percent.decode (Utf8.encode value))

/-- Takes one line into account. A line of another name, or a code that is no number, changes nothing. -/
def readLine (s : Status) (line : List Char) : Status :=
  match splitLine line with
  | none => s
  | some (name, value) =>
    let name := (Blank.trim name).map Char.toLower
    let value := Blank.trim value
    if name = codeName.toList then
      match Numeral.readInt32 value with
      | .ok n => { s with code := StatusCode.ofNumber n }
      | .error _ => s
    else if name = messageName.toList then { s with message := readMessage value }
    else s

/-- Reads a block. Without a code the error is an unknown one. -/
def read (bs : Bytes) : Status :=
  (lines (Utf8.lossy bs)).foldl readLine ⟨.unknown, ""⟩

end RpcGateway.Web.Trailers
