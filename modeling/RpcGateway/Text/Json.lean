/-!
# JSON text

Writes values as JSON without blanks. Quotes, backslashes and control characters are escaped in strings, and
all else stands for itself.
-/
namespace RpcGateway.JsonText

/-- The escape of a control character by its number. -/
def numbered (c : Char) : List Char :=
  let digits := Nat.toDigits 16 c.toNat
  "\\u".toList ++ List.replicate (4 - digits.length) '0' ++ digits

def escape (c : Char) : List Char :=
  if c = '"' then "\\\"".toList
  else if c = '\\' then "\\\\".toList
  else if c = '\x08' then "\\b".toList
  else if c = '\x09' then "\\t".toList
  else if c = '\x0a' then "\\n".toList
  else if c = '\x0c' then "\\f".toList
  else if c = '\x0d' then "\\r".toList
  else if c.toNat < 0x20 then numbered c
  else [c]

def string (s : String) : String :=
  "\"" ++ String.ofList (s.toList.flatMap escape) ++ "\""

def array (items : List String) : String :=
  "[" ++ String.intercalate "," items ++ "]"

def object (members : List (String × String)) : String :=
  let texts := members.map fun (key, value) => string key ++ ":" ++ value
  "\x7b" ++ String.intercalate "," texts ++ "\x7d"

end RpcGateway.JsonText
