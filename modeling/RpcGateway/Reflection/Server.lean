import RpcGateway.Duration
import RpcGateway.Status
import RpcGateway.Text.Utf8
/-!
# Reflection servers

A reflection server tells what services there are and hands out the schema files that describe them. It is
asked over streams, and everything it does may depend on what it was asked before.
-/
namespace RpcGateway.Reflection

/-- What a server is asked for: its services, the file that defines a symbol, or a file by its name. -/
inductive Query where
  | services
  | symbol (name : String)
  | file (name : String)
  deriving DecidableEq, Repr

def Query.text : Query → String
  | .services => "list"
  | .symbol name => "symbol:" ++ name
  | .file name => "file:" ++ name

/-- What a server answers on a stream. Files are in their binary form. -/
inductive Response where
  | services (names : List String)
  | files (files : List Bytes)
  | error (code : Int) (message : String)
  | extensions (base : String) (numbers : List Int)
  | empty
  deriving DecidableEq, Repr

/-- Texts in square brackets, with commas between them. -/
def bracketed (items : List String) : String :=
  "[" ++ String.intercalate ", " items ++ "]"

/-- A record with one or more fields, which are written already. -/
def recordText (name fields : String) : String :=
  name ++ " \x7b " ++ fields ++ " \x7d"

def Response.text : Response → String
  | .services names =>
    let items := names.map fun name => recordText "ServiceResponse" ("name: " ++ Quoted.text name)
    "ListServicesResponse(" ++
      recordText "ListServiceResponse" ("service: " ++ bracketed items) ++ ")"
  | .files contents =>
    let items := contents.map fun file => bracketed (file.map fun b => toString b.toNat)
    "FileDescriptorResponse(" ++
      recordText "FileDescriptorResponse" ("file_descriptor_proto: " ++ bracketed items) ++ ")"
  | .error code message =>
    "ErrorResponse(" ++
      recordText "ErrorResponse"
        s!"error_code: {code}, error_message: {Quoted.text message}" ++ ")"
  | .extensions base numbers =>
    let fields := "base_type_name: " ++ Quoted.text base ++ ", extension_number: " ++
      bracketed (numbers.map toString)
    "AllExtensionNumbersResponse(" ++ recordText "ExtensionNumberResponse" fields ++ ")"
  | .empty => "Empty Message"

/-- What comes back for a query: a response, or the end of the stream with a status or without. -/
inductive Outcome where
  | response (response : Response)
  | failed (status : Status)
  | finished
  deriving DecidableEq, Repr

structure Reply where
  outcome : Outcome
  delay : Duration
  deriving DecidableEq, Repr

/-- What becomes of a stream when it is opened: it is served, refused, or ends before a query is read. -/
inductive Opening where
  | served
  | refused (status : Status)
  | ended
  deriving DecidableEq, Repr

/-- A server with a state. It sees the query with which a stream is opened; it may stop to read queries on
a stream; and it replies to the queries that it reads. -/
structure Server (σ : Type) where
  opening : σ → Query → σ × Opening
  reads : σ → Nat → Bool
  reply : σ → Nat → Query → σ × Reply

end RpcGateway.Reflection
