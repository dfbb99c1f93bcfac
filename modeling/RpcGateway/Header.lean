import RpcGateway.Text.Utf8
/-!
# Header names and values

A header name is a token in lower case; a value is a line of bytes. Both are checked when they are made, so
that every name and value can be sent.
-/
namespace RpcGateway.Header

/-- Whether a character may stand in a header name. -/
def isNameChar (c : Char) : Bool :=
  c.isLower || c.isDigit || "!#$%&'*+-.^_`|~".toList.contains c

def maxNameLength : Nat := 65535

def isName (cs : List Char) : Bool :=
  !cs.isEmpty && cs.length ≤ maxNameLength && cs.all isNameChar

structure Name where
  text : String
  valid : isName text.toList = true
  deriving DecidableEq, Repr

def Name.ofText? (s : String) : Option Name :=
  let text := String.ofList (s.toList.map Char.toLower)
  if valid : isName text.toList = true then some ⟨text, valid⟩ else none

/-- What is said of a text that is no header name. -/
def nameProblem : String := "invalid HTTP header name"

/-- Whether a byte may stand in a header value. -/
def isValueByte (b : UInt8) : Bool :=
  b == 0x09 || (0x20 ≤ b && b != 0x7F)

structure Value where
  bytes : Bytes
  valid : bytes.all isValueByte = true
  deriving DecidableEq, Repr

namespace Value

def ofBytes? (bytes : Bytes) : Option Value :=
  if valid : bytes.all isValueByte = true then some ⟨bytes, valid⟩ else none

/-- The value of a text, without what may not stand in a value. -/
def ofText (s : String) : Value :=
  ⟨(bytesOf s).filter isValueByte, by simp⟩

def isTextByte (b : UInt8) : Bool :=
  b == 0x09 || (0x20 ≤ b && b < 0x7F)

/-- The text of a value, if all of it can be shown. -/
def text? (v : Value) : Option String :=
  if v.bytes.all isTextByte then some (lossyText v.bytes) else none

end Value

end RpcGateway.Header
