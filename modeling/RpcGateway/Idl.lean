/-!
# Schema declarations

A schema file as it is written in source: declarations in the order in which they appear, with every type
named or left as a placeholder.
-/
namespace RpcGateway.Idl

inductive Dialect where
  | proto2
  | proto3
  | editions
  deriving DecidableEq, Repr

/-- A type by its name, or a placeholder for one that has no name. -/
inductive TypeRef where
  | named (text : String)
  | placeholder
  deriving DecidableEq, Repr

inductive FieldType where
  | plain (type : TypeRef)
  | map (key value : TypeRef)
  deriving DecidableEq, Repr

inductive Label where
  | absent
  | required
  | repeated
  | marked
  deriving DecidableEq, Repr

structure Field where
  label : Label
  type : FieldType
  name : String
  number : Int
  deriving DecidableEq, Repr

structure Enumeration where
  name : String
  allowAlias : Bool
  values : List (String × Int)
  deriving DecidableEq, Repr

structure Oneof where
  name : String
  fields : List Field
  deriving DecidableEq, Repr

structure Message where
  name : String
  enums : List Enumeration
  messages : List Message
  oneofs : List Oneof
  fields : List Field
  deriving Repr

structure Parameter where
  stream : Bool
  type : String
  deriving DecidableEq, Repr

structure Method where
  name : String
  input : Parameter
  output : Parameter
  deriving DecidableEq, Repr

structure Service where
  name : String
  methods : List Method
  deriving DecidableEq, Repr

inductive Visibility where
  | ordinary
  | forwarded
  | weak
  deriving DecidableEq, Repr

structure Import where
  visibility : Visibility
  path : String
  deriving DecidableEq, Repr

structure File where
  dialect : Dialect
  package : Option String
  imports : List Import
  goPackage : Option String
  enums : List Enumeration
  messages : List Message
  services : List Service
  deriving Repr

def TypeRef.placeholders : TypeRef → Nat
  | .named _ => 0
  | .placeholder => 1

/-- How many placeholders the type of a field holds. -/
def FieldType.placeholders : FieldType → Nat
  | .plain type => type.placeholders
  | .map key value => key.placeholders + value.placeholders

def placeholdersOf : List Field → Nat
  | [] => 0
  | f :: rest => f.type.placeholders + placeholdersOf rest

mutual

/-- How many placeholders a message holds, with the messages nested in it. -/
def Message.placeholders : Message → Nat
  | ⟨_, _, messages, oneofs, fields⟩ =>
    placeholdersIn messages + placeholdersOf (oneofs.flatMap (·.fields)) + placeholdersOf fields

def placeholdersIn : List Message → Nat
  | [] => 0
  | m :: rest => m.placeholders + placeholdersIn rest

end

def File.placeholders (f : File) : Nat :=
  placeholdersIn f.messages

end RpcGateway.Idl
