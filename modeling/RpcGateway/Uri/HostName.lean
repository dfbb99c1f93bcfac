import RpcGateway.Net.Address
/-!
# Host names

The texts under which a certificate can be asked for: addresses of version 4 or 6, and domain names.
-/
namespace RpcGateway.HostName

/-- The longest domain name, and the longest of its labels. -/
def maxNameLength : Nat := 253
def maxLabelLength : Nat := 63

/-- Whether a character may stand in a label; the hyphen not at the ends. -/
def isLabelChar (c : Char) : Bool :=
  c.isAlphanum || c == '-' || c == '_'

/-- Whether a text is a label of a domain name. -/
def isLabel (cs : List Char) : Bool :=
  !cs.isEmpty && cs.length ≤ maxLabelLength && cs.all isLabelChar &&
    cs.head? != some '-' && cs.getLast? != some '-'

/-- A name without the dot that may end it. -/
def withoutRootDot (cs : List Char) : List Char :=
  if cs.getLast? = some '.' then cs.dropLast else cs

/-- Whether a text is a domain name: its last label has something else than digits. -/
def isDomainName (cs : List Char) : Bool :=
  let labels := (withoutRootDot cs).splitOn '.'
  cs.length ≤ maxNameLength && labels.all isLabel &&
    !(labels.getLastD []).all Char.isDigit

/-- Whether a certificate can be asked for under a name. -/
def isValid (cs : List Char) : Bool :=
  (Net.Address4.ofText? cs).isSome || (Net.Address6.ofText? cs).isSome || isDomainName cs

end RpcGateway.HostName
