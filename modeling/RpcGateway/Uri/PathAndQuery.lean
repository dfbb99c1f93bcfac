import RpcGateway.Text.Utf8
import RpcGateway.Uri.Error
/-!
# Paths and queries

What follows the authority of a URI. The fragment is cut off and never looked at. Characters outside ASCII
may stand in both parts.
-/
namespace RpcGateway.Uri

def isPathChar (c : Char) : Bool :=
  let n := c.toNat
  n == 0x21 || n == 0x22 || (0x24 ≤ n && n ≤ 0x3B) || n == 0x3D || (0x40 ≤ n && n ≤ 0x5F) ||
    (0x61 ≤ n && n ≤ 0x7E) || 0x80 ≤ n

def isQueryChar (c : Char) : Bool :=
  let n := c.toNat
  n == 0x21 || (0x24 ≤ n && n ≤ 0x3B) || n == 0x3D || (0x3F ≤ n && n ≤ 0x7E) || 0x80 ≤ n

/-- A checked path and query, as they were written. -/
structure PathAndQuery where
  path : List Char
  query : Option (List Char)
  deriving DecidableEq, Repr

namespace PathAndQuery

def readQuery : List Char → Except Error (List Char)
  | [] => .ok []
  | c :: rest =>
    if c = '#' then .ok []
    else if isQueryChar c then return c :: (← readQuery rest)
    else .error .character

/-- Reads a path and, after a question mark, a query. -/
def ofText : List Char → Except Error PathAndQuery
  | [] => .ok ⟨[], none⟩
  | c :: rest =>
    if c = '#' then .ok ⟨[], none⟩
    else if c = '?' then return ⟨[], some (← readQuery rest)⟩
    else if isPathChar c then do
      let tail ← ofText rest
      return { tail with path := c :: tail.path }
    else .error .character

/-- The path, which is a slash if nothing was written. -/
def shownPath (p : PathAndQuery) : List Char :=
  if p.path.isEmpty then ['/'] else p.path

def shownQuery (p : PathAndQuery) : List Char :=
  match p.query with
  | some query => '?' :: query
  | none => []

def text (p : PathAndQuery) : List Char :=
  p.shownPath ++ p.shownQuery

end PathAndQuery

def maxLength : Nat := 65534

/-- Whether a text has too many bytes for a URI. -/
def isTooLong (cs : List Char) : Bool :=
  maxLength < (Utf8.encode cs).length

end RpcGateway.Uri
