import RpcGateway.Proofs.Idl.Printable
import RpcGateway.Proofs.Schema.Reading
/-!
# Shapes of schema files

What a schema file declares, apart from how it says so: types by their codes or by the full names they refer
to, maps by the types of their keys and values. Files as compilers write them have names where names belong.
-/
namespace RpcGateway.Schema

open Idl (isIdentifier isDotted)

/-- A type: one that stands for itself, a reference to a declaration, or one that is not known. -/
inductive TypeShape where
  | scalar (code : Int)
  | reference (name : String)
  | unnamed
  deriving DecidableEq, Repr

inductive FieldTypeShape where
  | single (type : TypeShape)
  | map (key value : TypeShape)
  deriving DecidableEq, Repr

/-- A field. Inside a group of alternatives it has no label. -/
structure FieldShape where
  label : Idl.Label
  type : FieldTypeShape
  name : String
  number : Int
  deriving DecidableEq, Repr

structure EnumShape where
  name : String
  allowAlias : Bool
  values : List (String × Int)
  deriving DecidableEq, Repr

structure OneofShape where
  name : String
  members : List FieldShape
  deriving DecidableEq, Repr

/-- A message, with the fields that are in no written group. -/
structure MessageShape where
  name : String
  enums : List EnumShape
  messages : List MessageShape
  oneofs : List OneofShape
  fields : List FieldShape
  deriving Repr

structure MethodShape where
  name : String
  input : String
  output : String
  clientStreaming : Bool
  serverStreaming : Bool
  deriving DecidableEq, Repr

structure ServiceShape where
  name : String
  methods : List MethodShape
  deriving DecidableEq, Repr

/-- A file. An absent package is an empty one. -/
structure FileShape where
  dialect : Idl.Dialect
  package : String
  imports : List ImportShape
  goPackage : Option String
  enums : List EnumShape
  messages : List MessageShape
  services : List ServiceShape
  deriving Repr

/-- The type of a field without regard to maps. -/
def Field.typeShape (f : Field) : TypeShape :=
  match f.type with
  | none => if f.typeName.getD "" = "" then .unnamed else .reference (f.typeName.getD "")
  | some code =>
    if code = messageCode ∨ code = enumCode then .reference (f.typeName.getD "") else .scalar code

/-- The type of an entry's field by its name. -/
def Message.entryShape (entry : Message) (name : String) : TypeShape :=
  ((entry.fieldNamed? name).map Field.typeShape).getD .unnamed

/-- The shape of a field of the message `scope`. -/
def Field.shape (dialect : Idl.Dialect) (labelled : Bool) (scope : String) (nested : List Message)
    (f : Field) : FieldShape where
  label := if labelled then f.readLabel dialect else .absent
  type := match f.mapOf? scope nested with
    | some entry => .map (entry.entryShape "key") (entry.entryShape "value")
    | none => .single f.typeShape
  name := f.name.getD ""
  number := f.number.getD 0

def Enumeration.shape (e : Enumeration) : EnumShape where
  name := e.name.getD ""
  allowAlias := (e.options.bind (·.allowAlias)).getD false
  values := e.values.map fun value => (value.name.getD "", value.number.getD 0)

/-- The fields of a group. -/
def fieldsOf (fields : List Field) (index : Nat) : List Field :=
  fields.filter fun f => f.oneofIndex == some (index : Int)

/-- The fields that are in no group that somebody wrote. -/
def remainingFields (fields : List Field) (oneofs : List Oneof) : List Field :=
  fields.filter fun f =>
    (authoredOneofs fields oneofs).all fun (_, index) => f.oneofIndex != some (index : Int)

mutual

/-- The shape of a message that stands in `scope`. -/
def Message.shape (dialect : Idl.Dialect) (scope : String) : Message → MessageShape
  | ⟨name, fields, nested, enums, oneofs, _⟩ =>
    let inner := scope ++ "." ++ name.getD ""
    ⟨name.getD "", enums.map Enumeration.shape, shapesOf dialect inner nested,
      (authoredOneofs fields oneofs).map fun (group, index) =>
        ⟨group.name.getD "", (fieldsOf fields index).map (·.shape dialect false inner nested)⟩,
      (remainingFields fields oneofs).map (·.shape dialect true inner nested)⟩

def shapesOf (dialect : Idl.Dialect) (scope : String) : List Message → List MessageShape
  | [] => []
  | m :: rest =>
    if m.isEntryType then shapesOf dialect scope rest
    else m.shape dialect scope :: shapesOf dialect scope rest

end

def Method.shape (m : Method) : MethodShape where
  name := m.name.getD ""
  input := m.input.getD ""
  output := m.output.getD ""
  clientStreaming := m.clientStreaming.getD false
  serverStreaming := m.serverStreaming.getD false

def Service.shape (s : Service) : ServiceShape :=
  ⟨s.name.getD "", s.methods.map Method.shape⟩

def File.shape (f : File) : FileShape where
  dialect := f.namedDialect
  package := f.package.getD ""
  imports := f.dependencies.zipIdx.map fun (path, index) => f.importShape path index
  goPackage := f.options.bind (·.goPackage)
  enums := f.enums.map Enumeration.shape
  messages := f.messages.map (·.shape f.namedDialect f.scope)
  services := f.services.map Service.shape

def reservedWords : List String :=
  Idl.TypeRef.placeholder.text :: scalarNames.map Prod.snd

/-- Whether a text is a full name of a declaration, with a dot before it. -/
def isReference (name : String) : Bool :=
  match name.toList with
  | '.' :: rest => isDotted rest && !reservedWords.contains (String.ofList rest)
  | _ => false

def isNamed (name : Option String) : Bool :=
  isIdentifier (name.getD "").toList

/-- Whether a compiler writes such a field. A field without a code for its type may refer to one all the
same. -/
def Field.isCompilerShaped (f : Field) : Bool :=
  isNamed f.name &&
    match f.type with
    | none => f.typeName.getD "" == "" || isReference (f.typeName.getD "")
    | some code =>
      if code = messageCode ∨ code = enumCode then isReference (f.typeName.getD "")
      else (scalarNames.lookup code).isSome

def Enumeration.isCompilerShaped (e : Enumeration) : Bool :=
  isNamed e.name && e.values.all fun value => isNamed value.name

mutual

def Message.isCompilerShaped : Message → Bool
  | ⟨name, fields, nested, enums, oneofs, _⟩ =>
    isNamed name && fields.all Field.isCompilerShaped && areCompilerShaped nested &&
      enums.all Enumeration.isCompilerShaped && oneofs.all fun group => isNamed group.name

def areCompilerShaped : List Message → Bool
  | [] => true
  | m :: rest => m.isCompilerShaped && areCompilerShaped rest

end

def Method.isCompilerShaped (m : Method) : Bool :=
  isNamed m.name && isReference (m.input.getD "") && isReference (m.output.getD "")

def Service.isCompilerShaped (s : Service) : Bool :=
  isNamed s.name && s.methods.all Method.isCompilerShaped

/-- Whether a compiler writes such a file: what it declares has identifiers for names, its package is empty or
dotted, and its types are known keywords or references that no keyword hides. -/
def File.isCompilerShaped (f : File) : Bool :=
  (f.package.getD "" == "" || isDotted (f.package.getD "").toList) &&
    f.messages.all Message.isCompilerShaped && f.enums.all Enumeration.isCompilerShaped &&
    f.services.all Service.isCompilerShaped

end RpcGateway.Schema
