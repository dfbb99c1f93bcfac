import RpcGateway.Uri.Authority
import RpcGateway.Uri.PathAndQuery
/-!
# URIs

A URI is a scheme with an authority and a path, or one of the latter two alone. The two web schemes are
recognised in any letter case and kept in lower case; every other scheme is kept as it was written.
-/
namespace RpcGateway

structure Uri where
  scheme : Option (List Char)
  authority : Option Uri.Authority
  target : Uri.PathAndQuery
  deriving DecidableEq, Repr

namespace Uri

/-- What follows `lead` in a text, if the text starts with it; `lead` is in lower case and the text in
either. -/
def afterLead? (lead cs : List Char) : Option (List Char) :=
  if (cs.take lead.length).map Char.toLower = lead then some (cs.drop lead.length) else none

def isSchemeChar (c : Char) : Bool :=
  c.isAlphanum || c == '+' || c == '-' || c == '.'

/-- The scheme at the start of a text and what follows its colon and two slashes. -/
def takeScheme? (cs : List Char) : Option (List Char × List Char) :=
  match cs.dropWhile isSchemeChar with
  | ':' :: '/' :: '/' :: rest => some (cs.takeWhile isSchemeChar, rest)
  | _ => none

def maxSchemeLength : Nat := 64

/-- Splits the scheme off. Colon and slashes alone are no URI with an empty scheme. -/
def splitScheme (cs : List Char) : Except Error (Option (List Char) × List Char) :=
  if let some rest := afterLead? "http://".toList cs then .ok (some "http".toList, rest)
  else if let some rest := afterLead? "https://".toList cs then .ok (some "https".toList, rest)
  else if cs = "://".toList then .ok (none, cs)
  else match takeScheme? cs with
    | none => .ok (none, cs)
    | some (scheme, rest) =>
      if maxSchemeLength < scheme.length then .error .schemeTooLong else .ok (some scheme, rest)

def ofSchemed (scheme : List Char) (cs : List Char) : Except Error Uri :=
  if cs.isEmpty then .error .emptyText
  else do
    let (authority, rest) ← takeAuthority Scan.start cs
    if authority.isEmpty then throw .format
    return ⟨some scheme, some ⟨authority⟩, ← PathAndQuery.ofText rest⟩

/-- Reads a text without scheme, which is an authority alone. -/
def ofBare (cs : List Char) : Except Error Uri := do
  let (authority, rest) ← takeAuthority Scan.start cs
  if rest.isEmpty then return ⟨none, some ⟨authority⟩, ⟨[], none⟩⟩ else throw .format

def ofText (cs : List Char) : Except Error Uri :=
  if isTooLong cs then .error .tooLong
  else if cs.isEmpty then .error .emptyText
  else if cs.head? = some '/' then return ⟨none, none, ← PathAndQuery.ofText cs⟩
  else do
    match ← splitScheme cs with
    | (some scheme, rest) => ofSchemed scheme rest
    | (none, rest) => ofBare rest

def text (u : Uri) : List Char :=
  (match u.scheme with
    | some scheme => scheme ++ "://".toList
    | none => []) ++
  (match u.authority with
    | some authority => authority.text
    | none => []) ++
  u.target.text

end Uri

end RpcGateway
