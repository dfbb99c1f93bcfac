import RpcGateway.Idl.Printer
import RpcGateway.Schema.Membership
/-!
# Declarations of a schema file

The declarations that a descriptor stands for. Nothing is reordered; entry types of maps are not declared,
but used in the types of the map fields.
-/
namespace RpcGateway.Schema

def dialectOf (name : Option String) : Idl.Dialect :=
  match name.getD "" with
  | "proto3" => .proto3
  | "editions" => .editions
  | _ => .proto2

/-- A type name without the dots that mark it as complete. -/
def dotless (name : String) : String :=
  String.ofList (name.toList.dropWhile (· == '.'))

/-- The names of the types that stand for themselves, by their codes. -/
def scalarNames : List (Int × String) :=
  [(1, "double"), (2, "float"), (3, "int64"), (4, "uint64"), (5, "int32"), (6, "fixed64"),
   (7, "fixed32"), (8, "bool"), (9, "string"), (12, "bytes"), (13, "uint32"), (15, "sfixed32"),
   (16, "sfixed64"), (17, "sint32"), (18, "sint64")]

/-- The type of a field. A field without code may carry the name of its type all the same. -/
def Field.typeRef (f : Field) : Idl.TypeRef :=
  match f.type with
  | none =>
    match f.typeName with
    | none => .placeholder
    | some name => if name.isEmpty then .placeholder else .named (dotless name)
  | some code =>
    if code = messageCode ∨ code = enumCode ∨ code = groupCode then
      .named (dotless (f.typeName.getD ""))
    else match scalarNames.lookup code with
      | some name => .named name
      | none => .placeholder

/-- The label of a field, where the dialect writes one. -/
def Field.labelIn (dialect : Idl.Dialect) (f : Field) : Idl.Label :=
  if f.isRepeated then .repeated
  else if f.label == some requiredCode then
    if dialect = .proto2 then .required else .absent
  else match dialect with
    | .proto2 => .marked
    | .proto3 => if f.isMarkedOptional then .marked else .absent
    | .editions => .absent

/-- The type of an entry's field by its name; a placeholder if the entry lacks it. -/
def entryType (entry : Message) (name : String) : Idl.TypeRef :=
  match entry.fieldNamed? name with
  | some f => f.typeRef
  | none => .placeholder

/-- The declaration of a field of the message `scope`. A map has no label. -/
def Field.declare (dialect : Idl.Dialect) (labelled : Bool) (scope : String) (nested : List Message)
    (f : Field) : Idl.Field :=
  let name := f.name.getD ""
  let number := f.number.getD 0
  match entryTypeOf? scope nested f with
  | some entry => ⟨.absent, .map (entryType entry "key") (entryType entry "value"), name, number⟩
  | none => ⟨if labelled then f.labelIn dialect else .absent, .plain f.typeRef, name, number⟩

def Enumeration.declare (e : Enumeration) : Idl.Enumeration :=
  ⟨e.name.getD "", e.options.any fun options => options.allowAlias == some true,
    e.values.map fun value => (value.name.getD "", value.number.getD 0)⟩

def writtenOneofs (fields : List Field) (oneofs : List Oneof) : List (Oneof × Nat) :=
  oneofs.zipIdx.filter fun (_, index) => !isUnwritten fields index

/-- The fields of a group of alternatives, of `count` groups in all. -/
def groupFields (fields : List Field) (count index : Nat) : List Field :=
  fields.filter fun f => writtenOneof? fields count f == some index

def looseFields (fields : List Field) (count : Nat) : List Field :=
  fields.filter fun f => (writtenOneof? fields count f).isNone

mutual

/-- The declaration of a message that stands in `scope`. -/
def Message.declare (dialect : Idl.Dialect) (scope : String) : Message → Idl.Message
  | ⟨name, fields, nested, enums, oneofs, _⟩ =>
    let name := name.getD ""
    let inner := scope ++ "." ++ name
    ⟨name, enums.map Enumeration.declare, declareAll dialect inner nested,
      (writtenOneofs fields oneofs).map fun (group, index) =>
        ⟨group.name.getD "",
          (groupFields fields oneofs.length index).map (·.declare dialect false inner nested)⟩,
      (looseFields fields oneofs.length).map (·.declare dialect true inner nested)⟩

/-- The declarations of nested messages without the entry types. -/
def declareAll (dialect : Idl.Dialect) (scope : String) : List Message → List Idl.Message
  | [] => []
  | m :: rest =>
    if m.isEntryType then declareAll dialect scope rest
    else m.declare dialect scope :: declareAll dialect scope rest

end

def Method.declare (m : Method) : Idl.Method :=
  ⟨m.name.getD "", ⟨m.clientStreaming == some true, dotless (m.input.getD "")⟩,
    ⟨m.serverStreaming == some true, dotless (m.output.getD "")⟩⟩

def Service.declare (s : Service) : Idl.Service :=
  ⟨s.name.getD "", s.methods.map Method.declare⟩

namespace File

def visibility (f : File) (index : Nat) : Idl.Visibility :=
  if f.publicDependencies.contains (index : Int) then .forwarded
  else if f.weakDependencies.contains (index : Int) then .weak
  else .ordinary

/-- The package of a file, unless it is empty. -/
def package? (f : File) : Option String :=
  f.package.filter (!·.isEmpty)

/-- The scope in which the messages of a file stand. -/
def scope (f : File) : String :=
  match f.package? with
  | some package => "." ++ package
  | none => ""

/-- The declarations of a file. Messages at the top are declared even if they are marked as entries. -/
def declare (f : File) : Idl.File :=
  let dialect := dialectOf f.dialect
  ⟨dialect, f.package?,
    f.dependencies.zipIdx.map fun (path, index) => ⟨f.visibility index, path⟩,
    f.options.bind (·.goPackage), f.enums.map Enumeration.declare,
    f.messages.map (·.declare dialect f.scope), f.services.map Service.declare⟩

def render (f : File) : String :=
  f.declare.text

/-- How many types of a file have no name. -/
def namelessTypes (f : File) : Nat :=
  f.declare.placeholders

end File

end RpcGateway.Schema
