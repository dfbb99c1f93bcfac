import RpcGateway.Schema.File
import RpcGateway.Schema.Format
/-!
# The binary form of schema files

Writing puts the members that are set in the order of their numbers. Reading accepts them in any order and
checks everything that the format knows.
-/
namespace RpcGateway.Schema

open Wire

/-- A field that is written if it is set. -/
def ifSet {α : Type} (write : Nat → α → Bytes) (number : Nat) : Option α → Bytes
  | some value => write number value
  | none => []

def Field.encode (f : Field) : Bytes :=
  ifSet textField 1 f.name ++ ifSet intField 3 f.number ++ ifSet intField 4 f.label ++
    ifSet intField 5 f.type ++ ifSet textField 6 f.typeName ++ ifSet intField 9 f.oneofIndex ++
    ifSet boolField 17 f.proto3Optional

def EnumValue.encode (v : EnumValue) : Bytes :=
  ifSet textField 1 v.name ++ ifSet intField 2 v.number

def Enumeration.encode (e : Enumeration) : Bytes :=
  ifSet textField 1 e.name ++ e.values.flatMap (bytesField 2 ·.encode) ++
    ifSet (fun n options => bytesField n (ifSet boolField 2 options.allowAlias)) 3 e.options

def Oneof.encode (o : Oneof) : Bytes :=
  ifSet textField 1 o.name

def MessageOptions.encode (o : MessageOptions) : Bytes :=
  ifSet boolField 7 o.mapEntry

mutual

def Message.encode : Message → Bytes
  | ⟨name, fields, nested, enums, oneofs, options⟩ =>
    ifSet textField 1 name ++ fields.flatMap (bytesField 2 ·.encode) ++ encodeNested 3 nested ++
      enums.flatMap (bytesField 4 ·.encode) ++
      ifSet (fun n options => bytesField n options.encode) 7 options ++
      oneofs.flatMap (bytesField 8 ·.encode)

def encodeNested (number : Nat) : List Message → Bytes
  | [] => []
  | m :: rest => bytesField number m.encode ++ encodeNested number rest

end

def Method.encode (m : Method) : Bytes :=
  ifSet textField 1 m.name ++ ifSet textField 2 m.input ++ ifSet textField 3 m.output ++
    ifSet boolField 5 m.clientStreaming ++ ifSet boolField 6 m.serverStreaming

def Service.encode (s : Service) : Bytes :=
  ifSet textField 1 s.name ++ s.methods.flatMap (bytesField 2 ·.encode)

def FileOptions.encode (o : FileOptions) : Bytes :=
  ifSet textField 11 o.goPackage

def File.encode (f : File) : Bytes :=
  ifSet textField 1 f.name ++ ifSet textField 2 f.package ++
    f.dependencies.flatMap (textField 3) ++ encodeNested 4 f.messages ++
    f.enums.flatMap (bytesField 5 ·.encode) ++ f.services.flatMap (bytesField 6 ·.encode) ++
    ifSet (fun n options => bytesField n options.encode) 8 f.options ++
    f.publicDependencies.flatMap (intField 10) ++ f.weakDependencies.flatMap (intField 11) ++
    ifSet textField 12 f.dialect

def Field.ofEntries (es : Entries) : Field :=
  ⟨es.text? 1, es.int32? 3, es.int32? 4, es.int32? 5, es.text? 6, es.int32? 9, es.bool? 17⟩

def Enumeration.ofEntries (es : Entries) : Enumeration :=
  ⟨es.text? 1, (es.records 2).map fun value => ⟨value.text? 1, value.int32? 2⟩,
    (es.record? 3).map fun options => ⟨options.bool? 2⟩⟩

/-- The message that a record stands for; records are nested at most `depth` deep. -/
def Message.ofEntries : (depth : Nat) → Entries → Message
  | 0, _ => ⟨none, [], [], [], [], none⟩
  | depth + 1, es =>
    ⟨es.text? 1, (es.records 2).map Field.ofEntries,
      (es.records 3).map (Message.ofEntries depth), (es.records 4).map Enumeration.ofEntries,
      (es.records 8).map fun group => ⟨group.text? 1⟩,
      (es.record? 7).map fun options => ⟨options.bool? 7⟩⟩

def Service.ofEntries (es : Entries) : Service :=
  ⟨es.text? 1, (es.records 2).map fun method =>
    ⟨method.text? 1, method.text? 2, method.text? 3, method.bool? 5, method.bool? 6⟩⟩

def File.ofEntries (es : Entries) : File :=
  ⟨es.text? 1, es.text? 2, es.texts 3, (es.numbers 10).map toInt32, (es.numbers 11).map toInt32,
    (es.records 4).map (Message.ofEntries maxDepth), (es.records 5).map Enumeration.ofEntries,
    (es.records 6).map Service.ofEntries, (es.record? 8).map fun options => ⟨options.text? 11⟩,
    es.text? 12⟩

def File.decode (bs : Bytes) : Except ReadError File :=
  (Wire.decode format .file bs).map File.ofEntries

end RpcGateway.Schema
