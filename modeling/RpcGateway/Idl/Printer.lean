import RpcGateway.Idl
/-!
# Printing declarations

The source text of a schema file. Each declaration takes lines of its own, indented by two blanks for each
enclosing one; an empty line stands before each declaration at the top.
-/
namespace RpcGateway.Idl

structure Line where
  depth : Nat
  text : String
  deriving DecidableEq, Repr

def Line.print (l : Line) : List Char :=
  List.replicate (2 * l.depth) ' ' ++ l.text.toList ++ ['\n']

/-- A text between quotes: quotes and backslashes in it are escaped. -/
def escape (cs : List Char) : List Char :=
  cs.flatMap fun c => if c = '"' ∨ c = '\\' then ['\\', c] else [c]

def literal (s : String) : String :=
  "\"" ++ String.ofList (escape s.toList) ++ "\""

def Line.indent (l : Line) : Line :=
  { l with depth := l.depth + 1 }

/-- A block: a head with an opening brace, the lines inside, and a closing brace. -/
def block (head : String) (body : List Line) : List Line :=
  ⟨0, head ++ " \x7b"⟩ :: body.map Line.indent ++ [⟨0, "\x7d"⟩]

/-- The text of a type; a placeholder has a word of its own. -/
def TypeRef.text : TypeRef → String
  | .named text => text
  | .placeholder => "unknown"

def FieldType.text : FieldType → String
  | .plain type => type.text
  | .map key value => s!"map<{key.text}, {value.text}>"

/-- The text of a label with the blank after it. -/
def Label.text : Label → String
  | .absent => ""
  | .required => "required "
  | .repeated => "repeated "
  | .marked => "optional "

def Field.line (f : Field) : Line :=
  ⟨0, s!"{f.label.text}{f.type.text} {f.name} = {f.number};"⟩

def Enumeration.lines (e : Enumeration) : List Line :=
  block s!"enum {e.name}"
    ((if e.allowAlias then [⟨0, "option allow_alias = true;"⟩] else []) ++
      e.values.map fun (name, number) => ⟨0, s!"{name} = {number};"⟩)

def Oneof.lines (o : Oneof) : List Line :=
  block s!"oneof {o.name}" (o.fields.map Field.line)

mutual

def Message.lines : Message → List Line
  | ⟨name, enums, messages, oneofs, fields⟩ =>
    block s!"message {name}"
      (enums.flatMap Enumeration.lines ++ linesOf messages ++ oneofs.flatMap Oneof.lines ++
        fields.map Field.line)

def linesOf : List Message → List Line
  | [] => []
  | m :: rest => m.lines ++ linesOf rest

end

def Parameter.text (p : Parameter) : String :=
  (if p.stream then "stream " else "") ++ p.type

def Method.line (m : Method) : Line :=
  ⟨0, s!"rpc {m.name}({m.input.text}) returns ({m.output.text});"⟩

def Service.lines (s : Service) : List Line :=
  block s!"service {s.name}" (s.methods.map Method.line)

def Dialect.line : Dialect → Line
  | .proto2 => ⟨0, "syntax = \"proto2\";"⟩
  | .proto3 => ⟨0, "syntax = \"proto3\";"⟩
  | .editions => ⟨0, "edition = \"2023\";"⟩

/-- The word of a visibility with the blank after it. -/
def Visibility.text : Visibility → String
  | .ordinary => ""
  | .forwarded => "public "
  | .weak => "weak "

def Import.line (i : Import) : Line :=
  ⟨0, s!"import {i.visibility.text}{literal i.path};"⟩

/-- Lines with an empty one before them, if there are any. -/
def apart (lines : List Line) : List Line :=
  if lines.isEmpty then [] else ⟨0, ""⟩ :: lines

def File.lines (f : File) : List Line :=
  f.dialect.line ::
    apart (f.package.toList.map fun package => ⟨0, s!"package {package};"⟩) ++
    apart (f.imports.map Import.line) ++
    apart (f.goPackage.toList.map fun path => ⟨0, s!"option go_package = {literal path};"⟩) ++
    f.enums.flatMap (apart ·.lines) ++ f.messages.flatMap (apart ·.lines) ++
    f.services.flatMap (apart ·.lines)

def File.text (f : File) : String :=
  String.ofList (f.lines.flatMap Line.print)

end RpcGateway.Idl
