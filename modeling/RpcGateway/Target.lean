import RpcGateway.Text.Blank
import RpcGateway.Text.Cut
import RpcGateway.Uri
/-!
# Target addresses

The address of a backend, as callers write it: `host:port` with or without a scheme, or a resolver address
`dns:host:port`. A target knows where to connect and whether the connection has to be encrypted.
-/
namespace RpcGateway

inductive Scheme where
  | plain
  | secure
  | resolver
  deriving DecidableEq, Repr

/-- The address of a backend. `raw` is the address as written, without the blanks around it; `path` never
ends in a slash. -/
structure Target where
  raw : String
  scheme : Scheme
  host : String
  port : Nat
  path : Option String
  deriving DecidableEq, Repr

namespace Target

inductive Error where
  | empty
  | invalid (address : String) (reason : Uri.Error)
  | foreignScheme (address scheme : String)
  | noHost (address : String)
  | noPort (address : String)
  deriving DecidableEq, Repr

def Error.message : Error → String
  | .empty => "Target address is empty"
  | .invalid address reason => s!"Invalid target address '{address}': {reason.message}"
  | .foreignScheme address scheme => s!"Unsupported scheme '{scheme}' in target '{address}'"
  | .noHost address => s!"Target '{address}' has no host"
  | .noPort address => s!"Target '{address}' must specify a port"

def securePort : Nat := 443

/-- Whether connections have to be encrypted: by the scheme, by the port, or by how a resolver address
ends. -/
def isEncrypted (t : Target) : Bool :=
  t.scheme == .secure || t.port == securePort ||
    (t.scheme == .resolver && ":443".toList.isSuffixOf t.raw.toList)

def authority (t : Target) : String :=
  s!"{t.host}:{t.port}"

def origin (t : Target) : String :=
  (if t.isEncrypted then "https://" else "http://") ++ t.authority

/-- What stands between `dns:` and the host: nothing, or two slashes, a resolver and a slash. The resolver
may be left out with its slash. -/
def skipResolver (cs : List Char) : List Char :=
  match Cut.after? "//".toList cs with
  | none => cs
  | some rest =>
    match rest.dropWhile (· ≠ '/') with
    | _ :: address => address
    | [] => rest

/-- Reads what follows `dns:` in an address. The port has to be given. -/
def ofResolver (raw : String) (rest : List Char) : Except Error Target := do
  let address := skipResolver rest
  if address.isEmpty then throw (.noHost raw)
  let authority ← (Uri.Authority.ofText address).mapError (.invalid raw)
  if authority.host.isEmpty then throw (.noHost raw)
  match authority.port? with
  | none => throw (.noPort raw)
  | some port => return ⟨raw, .resolver, String.ofList authority.host, port, none⟩

def schemeNamed? (name : List Char) : Option Scheme :=
  if name = "http".toList ∨ name = "grpc".toList then some .plain
  else if name = "https".toList ∨ name = "grpcs".toList then some .secure
  else none

def defaultPort (scheme : Scheme) : Nat :=
  if scheme = .secure then securePort else 80

/-- Whether a text holds a colon and two slashes anywhere. -/
def hasSchemeMark : List Char → Bool
  | [] => false
  | c :: rest => "://".toList.isPrefixOf (c :: rest) || hasSchemeMark rest

/-- A path without the slashes at its end, if anything is left. -/
def trimPath (path : List Char) : Option String :=
  match (path.reverse.dropWhile (· == '/')).reverse with
  | [] => none
  | path => some (String.ofList path)

def ofUri (raw : String) : Except Error Target := do
  let cs := raw.toList
  let uri ← (Uri.ofText (if hasSchemeMark cs then cs else "http://".toList ++ cs)).mapError
    (.invalid raw)
  let name := uri.scheme.getD []
  match schemeNamed? name, uri.authority with
  | none, _ => throw (.foreignScheme raw (String.ofList name))
  | some _, none => throw (.noHost raw)
  | some scheme, some authority =>
    if authority.host.isEmpty then throw (.noHost raw)
    return ⟨raw, scheme, String.ofList authority.host, authority.port?.getD (defaultPort scheme),
      trimPath uri.target.path⟩

def ofAddress (address : String) : Except Error Target :=
  let raw := Blank.trimmed address
  if raw.isEmpty then .error .empty
  else match Cut.after? "dns:".toList raw.toList with
    | some rest => ofResolver raw rest
    | none => ofUri raw

end Target

end RpcGateway
