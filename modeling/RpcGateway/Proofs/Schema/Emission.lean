import RpcGateway.Proofs.Idl.Blocks
import RpcGateway.Proofs.Schema.Rendering
import Mathlib.Algebra.Ring.Nat
/-!
# Emission of a file

A file written line by line, with a counter that goes up by one with each placeholder on the way. What comes out
are the lines of the declarations of the file and the number of the placeholders in them: every step adds its
own lines and its own placeholders to those that are there.
-/
namespace RpcGateway.Schema

/-- What is written, and how many placeholders were counted. -/
structure Emission where
  lines : List Idl.Line
  unknown : Nat

namespace Emission

variable (e : Emission)

def line (depth : Nat) (text : String) : Emission :=
  { e with lines := e.lines ++ [⟨depth, text⟩] }

/-- Lines that are moved to the right. -/
def deepen (depth : Nat) (lines : List Idl.Line) : List Idl.Line :=
  lines.map fun l => ⟨depth + l.depth, l.text⟩

def write (depth : Nat) (lines : List Idl.Line) : Emission :=
  { e with lines := e.lines ++ deepen depth lines }

def placeholder : Emission × String :=
  ({ e with unknown := e.unknown + 1 }, "unknown")

/-- The name of the type of a field. -/
def typeName (f : Field) : Emission × String :=
  match f.type with
  | none =>
    match f.typeName with
    | some name => if name = "" then e.placeholder else (e, dotless name)
    | none => e.placeholder
  | some code =>
    if code = messageCode ∨ code = enumCode ∨ code = groupCode then (e, dotless (f.typeName.getD ""))
    else match scalarNames.lookup code with
      | some name => (e, name)
      | none => e.placeholder

/-- The name of the type of an entry's field. -/
def entryTypeName (entry : Message) (name : String) : Emission × String :=
  match entry.fieldNamed? name with
  | some f => e.typeName f
  | none => e.placeholder

/-- A field of the message `scope`. -/
def field (dialect : Idl.Dialect) (depth : Nat) (labelled : Bool) (scope : String) (nested : List Message)
    (e : Emission) (f : Field) : Emission :=
  let (e, declaration) := match f.mapOf? scope nested with
    | some entry =>
      let (e, key) := e.entryTypeName entry "key"
      let (e, value) := e.entryTypeName entry "value"
      (e, s!"map<{key}, {value}>")
    | none =>
      let (e, type) := e.typeName f
      (e, (if labelled then (f.readLabel dialect).text else "") ++ type)
  let name := f.name.getD ""
  let number := f.number.getD 0
  e.line depth s!"{declaration} {name} = {number};"

/-- The block of a group. -/
def oneof (dialect : Idl.Dialect) (depth : Nat) (scope : String) (fields : List Field)
    (nested : List Message) (count : Nat) (e : Emission) (group : Oneof × Nat) : Emission :=
  let name := group.1.name.getD ""
  let e := e.line depth s!"oneof {name} \x7b"
  let e := (groupFields fields count group.2).foldl (field dialect (depth + 1) false scope nested) e
  e.line depth "\x7d"

mutual

/-- A message that stands in `scope`. -/
def message (dialect : Idl.Dialect) (depth : Nat) (scope : String) (e : Emission) : Message → Emission
  | ⟨name, fields, nested, enums, oneofs, _⟩ =>
    let name := name.getD ""
    let inner := scope ++ "." ++ name
    let e := e.line depth s!"message {name} \x7b"
    let e := e.write (depth + 1) (enums.flatMap (·.declare.lines))
    let e := messages dialect (depth + 1) inner e nested
    let e := oneofs.zipIdx.foldl (fun e group => if isUnwritten fields group.2 then e
      else oneof dialect (depth + 1) inner fields nested oneofs.length e group) e
    let e := (looseFields fields oneofs.length).foldl (field dialect (depth + 1) true inner nested) e
    e.line depth "\x7d"

/-- The messages nested in one, without the entry types. -/
def messages (dialect : Idl.Dialect) (depth : Nat) (scope : String) (e : Emission) :
    List Message → Emission
  | [] => e
  | m :: rest =>
    if m.isEntryType then messages dialect depth scope e rest
    else messages dialect depth scope (message dialect depth scope e m) rest

end

/-- More lines, and more placeholders. -/
def add (lines : List Idl.Line) (count : Nat) : Emission :=
  ⟨e.lines ++ lines, e.unknown + count⟩

private theorem add_add (lines lines' : List Idl.Line) (count count' : Nat) :
    (e.add lines count).add lines' count' = e.add (lines ++ lines') (count + count') := by
  simp only [add, List.append_assoc, Nat.add_assoc]

private theorem line_eq_add (depth : Nat) (text : String) : e.line depth text = e.add [⟨depth, text⟩] 0 := rfl

private theorem write_eq_add (depth : Nat) (lines : List Idl.Line) :
    e.write depth lines = e.add (deepen depth lines) 0 := rfl

private theorem foldl_eq_add {α : Type} {step : Emission → α → Emission} {lines : α → List Idl.Line}
    {count : α → Nat} {xs : List α} (h : ∀ x ∈ xs, ∀ e, step e x = e.add (lines x) (count x)) :
    xs.foldl step e = e.add (xs.flatMap lines) (xs.map count).sum := by
  induction xs generalizing e with
  | nil => simp [add]
  | cons x xs ih =>
    rw [List.forall_mem_cons] at h
    rw [List.foldl_cons, h.1, ih _ h.2, add_add, List.flatMap_cons, List.map_cons, List.sum_cons]

private theorem typeName_eq_add (f : Field) :
    e.typeName f = (e.add [] f.typeRef.placeholders, f.typeRef.text) := by
  have hkeep : e = e.add [] 0 := by simp [add]
  rw [typeName, Field.typeRef]
  cases f.type with
  | none =>
    cases f.typeName with
    | none => simp [placeholder, add, Idl.TypeRef.placeholders, Idl.TypeRef.text]
    | some name =>
      by_cases hempty : name = "" <;>
        simp [hempty, placeholder, add, Idl.TypeRef.placeholders, Idl.TypeRef.text]
  | some code =>
    by_cases hdeclared : code = messageCode ∨ code = enumCode ∨ code = groupCode
    · simp [hdeclared, add, Idl.TypeRef.placeholders, Idl.TypeRef.text]
    · cases hlookup : scalarNames.lookup code <;>
        simp [hdeclared, hlookup, placeholder, add, Idl.TypeRef.placeholders, Idl.TypeRef.text]

private theorem entryTypeName_eq_add (entry : Message) (name : String) : e.entryTypeName entry name =
    (e.add [] (entryType entry name).placeholders, (entryType entry name).text) := by
  rw [entryTypeName, entryType]
  cases entry.fieldNamed? name with
  | some f => exact e.typeName_eq_add f
  | none => simp [placeholder, add, Idl.TypeRef.placeholders, Idl.TypeRef.text]

variable {dialect : Idl.Dialect} {depth : Nat} {labelled : Bool} {scope : String} {nested : List Message}

private theorem field_eq_add (f : Field) : field dialect depth labelled scope nested e f =
    e.add (deepen depth [(f.declare dialect labelled scope nested).line])
      (f.declare dialect labelled scope nested).type.placeholders := by
  rw [field, Field.declare, entryTypeOf?_eq_mapOf?, ← Field.labelIn_eq]
  cases f.mapOf? scope nested with
  | some entry =>
    simp only [entryTypeName_eq_add, line_eq_add, add_add, List.nil_append]
    rfl
  | none =>
    simp only [typeName_eq_add, line_eq_add, add_add, List.nil_append]
    cases labelled <;> rfl

private theorem sum_placeholders (fields : List Idl.Field) :
    (fields.map (·.type.placeholders)).sum = Idl.placeholdersOf fields := by
  induction fields with
  | nil => rfl
  | cons f rest ih => rw [List.map_cons, List.sum_cons, ih, Idl.placeholdersOf]

private theorem placeholdersOf_flatMap {α : Type} (f : α → List Idl.Field) (xs : List α) :
    Idl.placeholdersOf (xs.flatMap f) = (xs.map fun x => Idl.placeholdersOf (f x)).sum := by
  induction xs with
  | nil => rfl
  | cons x xs ih =>
    rw [List.flatMap_cons, List.map_cons, List.sum_cons, ← ih, ← sum_placeholders, List.map_append,
      List.sum_append, sum_placeholders, sum_placeholders]

private theorem deepen_zero (lines : List Idl.Line) : deepen 0 lines = lines := by
  simp [deepen]

private theorem deepen_append (lines lines' : List Idl.Line) :
    deepen depth (lines ++ lines') = deepen depth lines ++ deepen depth lines' :=
  List.map_append

private theorem deepen_flatMap {α : Type} (f : α → List Idl.Line) (xs : List α) :
    deepen depth (xs.flatMap f) = xs.flatMap fun x => deepen depth (f x) :=
  List.map_flatMap

private theorem deepen_block (head : String) (body : List Idl.Line) :
    deepen depth (Idl.block head body) =
      ⟨depth, head ++ " \x7b"⟩ :: deepen (depth + 1) body ++ [⟨depth, "\x7d"⟩] := by
  simp [deepen, Idl.block, Idl.Line.indent, Nat.add_assoc, Nat.add_comm 1]

private theorem fields_eq_add (fields : List Field) :
    fields.foldl (field dialect depth labelled scope nested) e =
      e.add (deepen depth ((fields.map (·.declare dialect labelled scope nested)).map Idl.Field.line))
        (Idl.placeholdersOf (fields.map (·.declare dialect labelled scope nested))) := by
  rw [foldl_eq_add e fun f _ e => field_eq_add e f, ← sum_placeholders]
  congr 1
  · rw [deepen, List.map_map, List.map_map, List.map_eq_flatMap]
    rfl
  · rw [List.map_map]
    rfl

/-- The declaration of a group. -/
def declareOneof (dialect : Idl.Dialect) (scope : String) (fields : List Field) (nested : List Message)
    (count : Nat) (group : Oneof × Nat) : Idl.Oneof :=
  ⟨group.1.name.getD "", (groupFields fields count group.2).map (·.declare dialect false scope nested)⟩

private theorem oneof_eq_add (fields : List Field) (count : Nat) (group : Oneof × Nat) :
    oneof dialect depth scope fields nested count e group =
      e.add (deepen depth (declareOneof dialect scope fields nested count group).lines)
        (Idl.placeholdersOf (declareOneof dialect scope fields nested count group).fields) := by
  simp only [oneof, fields_eq_add, line_eq_add, add_add]
  rw [Idl.Oneof.lines, deepen_block]
  simp [declareOneof]
  rfl

private theorem oneofs_eq_add (fields : List Field) (oneofs : List Oneof) :
    (oneofs.zipIdx.foldl (fun e group => if isUnwritten fields group.2 then e
        else oneof dialect depth scope fields nested oneofs.length e group) e) =
      let declared := (writtenOneofs fields oneofs).map
        (declareOneof dialect scope fields nested oneofs.length)
      e.add (deepen depth (declared.flatMap (·.lines)))
        (Idl.placeholdersOf (declared.flatMap (·.fields))) := by
  have hfilter : (oneofs.zipIdx.foldl (fun e group => if isUnwritten fields group.2 then e
        else oneof dialect depth scope fields nested oneofs.length e group) e) =
      (writtenOneofs fields oneofs).foldl
        (oneof dialect depth scope fields nested oneofs.length) e := by
    rw [writtenOneofs, List.foldl_filter]
    congr 1
    funext e group
    cases hunwritten : isUnwritten fields group.2 <;> simp [hunwritten]
  rw [hfilter, foldl_eq_add e fun group _ e => oneof_eq_add e fields oneofs.length group]
  congr 1
  · rw [deepen_flatMap, List.flatMap_map]
  · rw [List.flatMap_map, placeholdersOf_flatMap]

private theorem messages_eq_foldl (ms : List Message) : messages dialect depth scope e ms =
    (ms.filter (!·.isEntryType)).foldl (message dialect depth scope) e := by
  induction ms generalizing e with
  | nil => rfl
  | cons m rest ih =>
    rw [messages]
    cases hentry : m.isEntryType <;> simp [hentry, ih]

private theorem placeholdersIn_eq_sum (ms : List Idl.Message) :
    Idl.placeholdersIn ms = (ms.map (·.placeholders)).sum := by
  induction ms with
  | nil => rfl
  | cons m rest ih => rw [Idl.placeholdersIn, List.map_cons, List.sum_cons, ih]

/-- A message adds the lines and the placeholders of its declaration. -/
private theorem message_eq_add (m : Message) : message dialect depth scope e m =
    e.add (deepen depth (m.declare dialect scope).lines) (m.declare dialect scope).placeholders := by
  induction m using Message.induction generalizing e depth scope with
  | step m ih =>
    obtain ⟨name, fields, nested, enums, oneofs, options⟩ := m
    have hnested (inner : String) (e : Emission) : messages dialect (depth + 1) inner e nested =
        e.add (deepen (depth + 1) (Idl.linesOf (declareAll dialect inner nested)))
          (Idl.placeholdersIn (declareAll dialect inner nested)) := by
      rw [messages_eq_foldl, foldl_eq_add e fun n hn e => ih n (List.mem_filter.mp hn).1 e,
        declareAll_eq_map, Idl.linesOf_eq_flatMap, placeholdersIn_eq_sum, deepen_flatMap, List.flatMap_map,
        List.map_map]
      rfl
    simp only [message, hnested, oneofs_eq_add, fields_eq_add, line_eq_add, write_eq_add, add_add]
    rw [Message.declare, Idl.Message.lines, deepen_block, Idl.Message.placeholders]
    simp only [deepen_append, List.map_map]
    congr 1
    · simp only [List.flatMap_map, List.append_assoc, List.cons_append]
      rfl
    · simp only [Nat.zero_add, Nat.add_zero]
      rfl

end Emission

namespace File

/-- A file written line by line: what stands above the messages, then the messages, then the services. -/
def emit (f : File) : Emission :=
  let above : Idl.File := { f.declare with messages := [], services := [] }
  let e : Emission := ⟨above.lines, 0⟩
  let e := f.messages.foldl (fun e m => (e.line 0 "").message f.namedDialect 0 f.scope m) e
  e.write 0 (f.declare.services.flatMap fun s => Idl.apart s.lines)

/-- A file is emitted as the lines of its declarations, with the number of their placeholders. -/
theorem emit_eq (f : File) : f.emit = ⟨f.declare.lines, f.namelessTypes⟩ := by
  have hmessage : ∀ m ∈ f.messages, ∀ e : Emission,
      (e.line 0 "").message f.namedDialect 0 f.scope m =
        e.add (Idl.apart (m.declare f.namedDialect f.scope).lines)
          (m.declare f.namedDialect f.scope).placeholders := by
    intro m _ e
    rw [Emission.message_eq_add, Emission.line_eq_add, Emission.add_add, Emission.deepen_zero, Nat.zero_add,
      Idl.Message.lines_eq]
    rfl
  rw [emit, Emission.foldl_eq_add _ hmessage, Emission.write_eq_add, Emission.add_add, Emission.deepen_zero,
    namelessTypes, Idl.File.placeholders, Emission.placeholdersIn_eq_sum, ← dialectOf_eq, Emission.add]
  simp only [declare, Idl.File.lines, List.flatMap_nil, List.append_nil, List.append_assoc, List.flatMap_map,
    List.map_map, List.cons_append, Nat.add_zero, Nat.zero_add]
  rfl

end File

end RpcGateway.Schema
