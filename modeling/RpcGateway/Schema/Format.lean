import RpcGateway.Wire.Record
/-!
# The format of schema files

The grammar of descriptors: which records they are made of, and the number, name and content of every
field. It lists also what the library does not keep, since all of it is checked when a file is read.
-/
namespace RpcGateway.Schema

open Wire (Content FieldRule Grammar)

inductive Kind where
  | file
  | message
  | extensionRange
  | reservedRange
  | extensionRangeOptions
  | field
  | oneof
  | enumeration
  | enumReservedRange
  | enumValue
  | service
  | method
  | fileOptions
  | messageOptions
  | fieldOptions
  | oneofOptions
  | enumOptions
  | enumValueOptions
  | serviceOptions
  | methodOptions
  | uninterpretedOption
  | namePart
  | sourceInfo
  | location
  deriving DecidableEq, Repr

namespace Kind

def name : Kind → String
  | .file => "FileDescriptorProto"
  | .message => "DescriptorProto"
  | .extensionRange => "ExtensionRange"
  | .reservedRange => "ReservedRange"
  | .extensionRangeOptions => "ExtensionRangeOptions"
  | .field => "FieldDescriptorProto"
  | .oneof => "OneofDescriptorProto"
  | .enumeration => "EnumDescriptorProto"
  | .enumReservedRange => "EnumReservedRange"
  | .enumValue => "EnumValueDescriptorProto"
  | .service => "ServiceDescriptorProto"
  | .method => "MethodDescriptorProto"
  | .fileOptions => "FileOptions"
  | .messageOptions => "MessageOptions"
  | .fieldOptions => "FieldOptions"
  | .oneofOptions => "OneofOptions"
  | .enumOptions => "EnumOptions"
  | .enumValueOptions => "EnumValueOptions"
  | .serviceOptions => "ServiceOptions"
  | .methodOptions => "MethodOptions"
  | .uninterpretedOption => "UninterpretedOption"
  | .namePart => "NamePart"
  | .sourceInfo => "SourceCodeInfo"
  | .location => "Location"

def number (n : Nat) (name : String) : FieldRule Kind := ⟨n, name, .number .varint⟩

def text (n : Nat) (name : String) : FieldRule Kind := ⟨n, name, .text⟩

def record (kind : Kind) (n : Nat) (name : String) : FieldRule Kind := ⟨n, name, .record kind⟩

/-- The field of options that were not understood, which all options have. -/
def uninterpreted : FieldRule Kind := ⟨999, "uninterpreted_option", .record .uninterpretedOption⟩

def fields : Kind → List (FieldRule Kind)
  | .file =>
    [text 1 "name", text 2 "package", text 3 "dependency", ⟨10, "public_dependency", .numbers⟩,
     ⟨11, "weak_dependency", .numbers⟩, record .message 4 "message_type",
     record .enumeration 5 "enum_type", record .service 6 "service", record .field 7 "extension",
     record .fileOptions 8 "options", record .sourceInfo 9 "source_code_info", text 12 "syntax"]
  | .message =>
    [text 1 "name", record .field 2 "field", record .field 6 "extension",
     record .message 3 "nested_type", record .enumeration 4 "enum_type",
     record .extensionRange 5 "extension_range", record .oneof 8 "oneof_decl",
     record .messageOptions 7 "options", record .reservedRange 9 "reserved_range",
     text 10 "reserved_name"]
  | .extensionRange =>
    [number 1 "start", number 2 "end", record .extensionRangeOptions 3 "options"]
  | .reservedRange => [number 1 "start", number 2 "end"]
  | .extensionRangeOptions => [uninterpreted]
  | .field =>
    [text 1 "name", number 3 "number", number 4 "label", number 5 "r#type", text 6 "type_name",
     text 2 "extendee", text 7 "default_value", number 9 "oneof_index", text 10 "json_name",
     record .fieldOptions 8 "options", number 17 "proto3_optional"]
  | .oneof => [text 1 "name", record .oneofOptions 2 "options"]
  | .enumeration =>
    [text 1 "name", record .enumValue 2 "value", record .enumOptions 3 "options",
     record .enumReservedRange 4 "reserved_range", text 5 "reserved_name"]
  | .enumReservedRange => [number 1 "start", number 2 "end"]
  | .enumValue => [text 1 "name", number 2 "number", record .enumValueOptions 3 "options"]
  | .service => [text 1 "name", record .method 2 "method", record .serviceOptions 3 "options"]
  | .method =>
    [text 1 "name", text 2 "input_type", text 3 "output_type", record .methodOptions 4 "options",
     number 5 "client_streaming", number 6 "server_streaming"]
  | .fileOptions =>
    [text 1 "java_package", text 8 "java_outer_classname", number 10 "java_multiple_files",
     number 20 "java_generate_equals_and_hash", number 27 "java_string_check_utf8",
     number 9 "optimize_for", text 11 "go_package", number 16 "cc_generic_services",
     number 17 "java_generic_services", number 18 "py_generic_services",
     number 42 "php_generic_services", number 23 "deprecated", number 31 "cc_enable_arenas",
     text 36 "objc_class_prefix", text 37 "csharp_namespace", text 39 "swift_prefix",
     text 40 "php_class_prefix", text 41 "php_namespace", text 44 "php_metadata_namespace",
     text 45 "ruby_package", uninterpreted]
  | .messageOptions =>
    [number 1 "message_set_wire_format", number 2 "no_standard_descriptor_accessor",
     number 3 "deprecated", number 7 "map_entry", uninterpreted]
  | .fieldOptions =>
    [number 1 "ctype", number 2 "packed", number 6 "jstype", number 5 "lazy",
     number 3 "deprecated", number 10 "weak", uninterpreted]
  | .oneofOptions => [uninterpreted]
  | .enumOptions => [number 2 "allow_alias", number 3 "deprecated", uninterpreted]
  | .enumValueOptions => [number 1 "deprecated", uninterpreted]
  | .serviceOptions => [number 33 "deprecated", uninterpreted]
  | .methodOptions => [number 33 "deprecated", number 34 "idempotency_level", uninterpreted]
  | .uninterpretedOption =>
    [record .namePart 2 "name", text 3 "identifier_value", number 4 "positive_int_value",
     number 5 "negative_int_value", ⟨6, "double_value", .number .fixed64⟩,
     ⟨7, "string_value", .bytes⟩, text 8 "aggregate_value"]
  | .namePart => [text 1 "name_part", number 2 "is_extension"]
  | .sourceInfo => [record .location 1 "location"]
  | .location =>
    [⟨1, "path", .numbers⟩, ⟨2, "span", .numbers⟩, text 3 "leading_comments",
     text 4 "trailing_comments", text 6 "leading_detached_comments"]

end Kind

def format : Grammar Kind := ⟨Kind.name, Kind.fields⟩

end RpcGateway.Schema
