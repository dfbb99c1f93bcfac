/-!
# Schema files

The descriptor of a schema file, as servers hand it out: messages, enumerations and services with the
names of the types they refer to. Everything is optional, and an absent member is told apart from an empty
one. Types and labels are kept as their codes.
-/
namespace RpcGateway.Schema

structure Field where
  name : Option String
  number : Option Int
  label : Option Int
  type : Option Int
  typeName : Option String
  oneofIndex : Option Int
  proto3Optional : Option Bool
  deriving DecidableEq, Repr

structure EnumValue where
  name : Option String
  number : Option Int
  deriving DecidableEq, Repr

structure EnumOptions where
  allowAlias : Option Bool
  deriving DecidableEq, Repr

structure Enumeration where
  name : Option String
  values : List EnumValue
  options : Option EnumOptions
  deriving DecidableEq, Repr

/-- A group of fields of which at most one is set. -/
structure Oneof where
  name : Option String
  deriving DecidableEq, Repr

structure MessageOptions where
  mapEntry : Option Bool
  deriving DecidableEq, Repr

structure Message where
  name : Option String
  fields : List Field
  nested : List Message
  enums : List Enumeration
  oneofs : List Oneof
  options : Option MessageOptions
  deriving Inhabited, Repr

-- Messages nest through lists, for which no handler derives that equality can be decided.
mutual

def Message.decEq : (a b : Message) → Decidable (a = b)
  | ⟨name, fields, nested, enums, oneofs, options⟩, ⟨name', fields', nested', enums', oneofs', options'⟩ =>
    have : Decidable (nested = nested') := Message.decEqAll nested nested'
    decidable_of_iff (name = name' ∧ fields = fields' ∧ nested = nested' ∧ enums = enums' ∧
      oneofs = oneofs' ∧ options = options') (by simp)

def Message.decEqAll : (ms ms' : List Message) → Decidable (ms = ms')
  | [], [] => .isTrue rfl
  | [], _ :: _ => .isFalse (by simp)
  | _ :: _, [] => .isFalse (by simp)
  | m :: rest, m' :: rest' =>
    have : Decidable (m = m') := Message.decEq m m'
    have : Decidable (rest = rest') := Message.decEqAll rest rest'
    decidable_of_iff (m = m' ∧ rest = rest') (by simp)

end

instance : DecidableEq Message := Message.decEq

structure Method where
  name : Option String
  input : Option String
  output : Option String
  clientStreaming : Option Bool
  serverStreaming : Option Bool
  deriving DecidableEq, Repr

structure Service where
  name : Option String
  methods : List Method
  deriving DecidableEq, Repr

structure FileOptions where
  goPackage : Option String
  deriving DecidableEq, Repr

/-- A file. The two lists of numbers pick dependencies by their position. -/
structure File where
  name : Option String
  package : Option String
  dependencies : List String
  publicDependencies : List Int
  weakDependencies : List Int
  messages : List Message
  enums : List Enumeration
  services : List Service
  options : Option FileOptions
  dialect : Option String
  deriving DecidableEq, Repr

/-- The codes of types that refer to another declaration, and of labels. -/
def groupCode : Int := 10
def messageCode : Int := 11
def enumCode : Int := 14
def requiredCode : Int := 2
def repeatedCode : Int := 3

namespace Field

def isRepeated (f : Field) : Bool :=
  f.label == some repeatedCode

/-- Whether a field is marked as optional in the dialect that needs no labels. -/
def isMarkedOptional (f : Field) : Bool :=
  f.proto3Optional == some true

end Field

/-- Whether a message is the entry type of a map field. -/
def Message.isEntryType (m : Message) : Bool :=
  m.options.any fun options => options.mapEntry == some true

end RpcGateway.Schema
