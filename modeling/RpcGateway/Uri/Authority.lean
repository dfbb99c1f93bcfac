import RpcGateway.Text.Numeral
import RpcGateway.Uri.Error
/-!
# Authorities

The part of a URI between the scheme and the path: user information, a host that may stand in brackets,
and a port. One scan from the left finds its end and checks it; host and port are read off the text.
-/
namespace RpcGateway.Uri

def isTerminator (c : Char) : Bool :=
  c == '/' || c == '?' || c == '#'

/-- Whether a character may stand in an authority without further conditions. -/
def isAuthorityChar (c : Char) : Bool :=
  c.isAlphanum || "!$&'()*+,-.;=_~".toList.contains c

/-- What the scan of an authority has seen: the colons and whether there was a percent sign since the last
closing bracket or at sign, the brackets, and whether the last character was an at sign. -/
structure Scan where
  colons : Nat
  percent : Bool
  opened : Bool
  closed : Bool
  atSign : Bool
  deriving DecidableEq, Repr

namespace Scan

def start : Scan := ⟨0, false, false, false, false⟩

/-- Takes one more character of the authority. -/
def step (seen : Scan) (c : Char) : Except Error Scan :=
  if c = ':' then
    if 8 ≤ seen.colons then .error .authority
    else .ok { seen with colons := seen.colons + 1, atSign := false }
  else if c = '[' then
    if seen.percent || seen.opened then .error .authority
    else .ok { seen with opened := true, atSign := false }
  else if c = ']' then
    if !seen.opened || seen.closed then .error .authority
    else .ok { seen with closed := true, colons := 0, percent := false, atSign := false }
  else if c = '@' then .ok { seen with colons := 0, percent := false, atSign := true }
  else if c = '%' then .ok { seen with percent := true, atSign := false }
  else if isAuthorityChar c then .ok { seen with atSign := false }
  else .error .character

def canEnd (seen : Scan) : Bool :=
  seen.opened == seen.closed && seen.colons ≤ 1 && !seen.atSign && !seen.percent

end Scan

/-- The authority at the start of a text, and what follows it. -/
def takeAuthority (seen : Scan) : List Char → Except Error (List Char × List Char)
  | [] => if seen.canEnd then .ok ([], []) else .error .authority
  | c :: rest =>
    if isTerminator c then
      if seen.canEnd then .ok ([], c :: rest) else .error .authority
    else do
      let (text, rest) ← takeAuthority (← seen.step c) rest
      return (c :: text, rest)

structure Authority where
  text : List Char
  deriving DecidableEq, Repr

namespace Authority

/-- Reads a text that is an authority and nothing else. -/
def ofText (cs : List Char) : Except Error Authority :=
  if cs.isEmpty then .error .emptyText
  else do
    let (text, rest) ← takeAuthority Scan.start cs
    if rest.isEmpty then return ⟨text⟩ else throw .character

/-- What follows the last occurrence of a character; the whole text if there is none. -/
def afterLast (mark : Char) (cs : List Char) : List Char :=
  (cs.reverse.takeWhile (· ≠ mark)).reverse

/-- Host and port, without the user information. -/
def hostPort (a : Authority) : List Char :=
  afterLast '@' a.text

/-- The host, with its brackets if there are any. -/
def host (a : Authority) : List Char :=
  match a.hostPort with
  | '[' :: rest => '[' :: rest.takeWhile (· ≠ ']') ++ [']']
  | cs => cs.takeWhile (· ≠ ':')

/-- The port: the number after the last colon, if there is one. -/
def port? (a : Authority) : Option Nat :=
  if a.text.contains ':' then
    (Numeral.readNat Numeral.maxWord16 (afterLast ':' a.text)).toOption
  else none

end Authority

end RpcGateway.Uri
