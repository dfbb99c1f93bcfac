import RpcGateway.Proofs.Schema.Emission
import RpcGateway.Proofs.Schema.Layout
import RpcGateway.Proofs.Schema.Placement
import Mathlib.Data.List.Perm.Basic
/-!
# Types that are left open

Each field of a written message has one type, or two if it is a map: those of the key and the value. Where
there is nothing to name a type by, a placeholder stands for it, and a file has as many placeholders as it
has such types.
-/
namespace RpcGateway

namespace Idl

private theorem FieldType.placeholders_eq (type : FieldType) :
    type.placeholders = type.types.count .placeholder := by
  cases type with
  | plain type => cases type <;> rfl
  | map key value => cases key <;> cases value <;> rfl

private theorem placeholdersOf_eq (fields : List Field) :
    placeholdersOf fields = (fields.flatMap (·.type.types)).count .placeholder := by
  induction fields with
  | nil => rfl
  | cons f rest ih =>
    rw [placeholdersOf, List.flatMap_cons, List.count_append, ih, FieldType.placeholders_eq]

private theorem Message.placeholders_eq (m : Message) (scope : String) : m.placeholders =
    (((m.placed scope).flatMap (·.message.allFields)).flatMap (·.type.types)).count .placeholder := by
  induction m using Message.induction generalizing scope with
  | step m ih =>
    obtain ⟨name, enums, messages, oneofs, fields⟩ := m
    have hnested (inner : String) : placeholdersIn messages =
        (((messages.flatMap (Message.placed inner)).flatMap (·.message.allFields)).flatMap
          (·.type.types)).count .placeholder := by
      clear * - ih
      induction messages with
      | nil => rfl
      | cons n rest ihRest =>
        rw [placeholdersIn, ih n List.mem_cons_self inner,
          ihRest fun n hn => ih n (List.mem_cons_of_mem _ hn), List.flatMap_cons, List.flatMap_append,
          List.flatMap_append, List.count_append]
    rw [Message.placeholders, hnested (scope ++ "." ++ name), placeholdersOf_eq, placeholdersOf_eq,
      Message.placed_eq, List.flatMap_append, List.flatMap_append, List.count_append,
      List.flatMap_singleton, Message.allFields, List.flatMap_append, List.count_append, Nat.add_assoc]

private theorem File.placeholders_eq (f : File) : f.placeholders = f.types.count .placeholder := by
  rw [File.placeholders, File.types, File.fields, File.placed]
  generalize f.messages = messages
  induction messages with
  | nil => rfl
  | cons m rest ih =>
    rw [placeholdersIn, placedIn, List.flatMap_append, List.flatMap_append, List.count_append, ih,
      m.placeholders_eq f.scope]

end Idl

namespace Schema

/-- Where a type is taken from: a field, unless the entry type of a map lacks it. -/
inductive Slot where
  | given (f : Field)
  | lacking
  deriving DecidableEq, Repr

def Slot.typeRef : Slot → Idl.TypeRef
  | .given f => f.typeRef
  | .lacking => .placeholder

/-- Whether there is nothing to name a type by: its code is unknown, or there are neither a code nor a name,
or there is no field at all. -/
def Slot.isNameless : Slot → Bool
  | .given f =>
    match f.type with
    | some code => decide (code < 1 ∨ 18 < code)
    | none => (f.typeName.getD "").isEmpty
  | .lacking => true

def Message.slot (entry : Message) (name : String) : Slot :=
  match entry.fieldNamed? name with
  | some f => .given f
  | none => .lacking

/-- The slots of a field of the message `scope`: one, or those of the key and the value of a map. -/
def Field.slots (scope : String) (nested : List Message) (f : Field) : List Slot :=
  match f.mapOf? scope nested with
  | some entry => [entry.slot "key", entry.slot "value"]
  | none => [.given f]

def Placed.slots (p : Placed) : List Slot :=
  p.message.fields.flatMap (·.slots p.name p.message.nested)

/-- The slots of all written messages. Those of an entry type count for each map that it belongs to. -/
def File.slots (f : File) : List Slot :=
  f.written.flatMap Placed.slots

private theorem Field.slots_of_isMapOf {scope : String} {nested : List Message} {f : Field} {entry : Message}
    (h : f.IsMapOf scope nested entry) :
    f.slots scope nested = [entry.slot "key", entry.slot "value"] := by
  rw [slots, mapOf?_eq_some_iff.mpr h]

private theorem Field.slots_of_not_isMapOf {scope : String} {nested : List Message} {f : Field}
    (h : ∀ entry, ¬ f.IsMapOf scope nested entry) : f.slots scope nested = [.given f] := by
  have hnone : f.mapOf? scope nested = none :=
    Option.eq_none_iff_forall_ne_some.mpr fun entry hentry => h entry (mapOf?_eq_some_iff.mp hentry)
  rw [slots, hnone]

private theorem lookup_scalarNames_eq_none_iff {code : Int} : scalarNames.lookup code = none ↔
    code < 1 ∨ 18 < code ∨ code = groupCode ∨ code = messageCode ∨ code = enumCode := by
  rw [List.lookup_eq_none_iff]
  simp only [scalarNames, List.forall_mem_cons, List.not_mem_nil, false_implies, implies_true, and_true,
    bne_iff_ne, groupCode, messageCode, enumCode]
  omega

private theorem mem_scalarNames_of_lookup {code : Int} {name : String}
    (h : scalarNames.lookup code = some name) : (code, name) ∈ scalarNames := by
  obtain ⟨before, after, hentries, -⟩ := List.lookup_eq_some_iff.mp h
  rw [hentries]
  simp

theorem known_of_declared {code : Int} (h : code = messageCode ∨ code = enumCode ∨ code = groupCode) :
    ¬ (code < 1 ∨ 18 < code) := by
  rcases h with rfl | rfl | rfl <;> decide

/-- Where a field has its type from: a name, a code and a name, a code, or nothing that is known. -/
inductive Field.HasType (f : Field) : Idl.TypeRef → Prop where
  | uncoded {name : String} (code_eq : f.type = none) (name_eq : f.typeName = some name)
      (name_ne : name ≠ "") : f.HasType (.named (dotless name))
  | declared {code : Int} (code_eq : f.type = some code)
      (code_mem : code = messageCode ∨ code = enumCode ∨ code = groupCode) :
      f.HasType (.named (dotless (f.typeName.getD "")))
  | scalar {code : Int} {name : String} (code_eq : f.type = some code)
      (code_notMem : ¬ (code = messageCode ∨ code = enumCode ∨ code = groupCode))
      (known : ¬ (code < 1 ∨ 18 < code)) (entry_mem : (code, name) ∈ scalarNames) : f.HasType (.named name)
  | unnamed (code_eq : f.type = none) (name_eq : f.typeName.getD "" = "") : f.HasType .placeholder
  | unknown {code : Int} (code_eq : f.type = some code)
      (code_notMem : ¬ (code = messageCode ∨ code = enumCode ∨ code = groupCode))
      (not_known : code < 1 ∨ 18 < code) : f.HasType .placeholder

theorem Field.hasType_typeRef (f : Field) : f.HasType f.typeRef := by
  rw [typeRef]
  cases hcode : f.type with
  | none =>
    cases hname : f.typeName with
    | none => exact .unnamed hcode (by rw [hname]; rfl)
    | some name =>
      by_cases hempty : name = ""
      · simp only [hempty, String.isEmpty_iff, if_true]
        exact .unnamed hcode (by rw [hname, hempty]; rfl)
      · simp only [String.isEmpty_iff, if_neg hempty]
        exact .uncoded hcode hname hempty
  | some code =>
    by_cases hmem : code = messageCode ∨ code = enumCode ∨ code = groupCode
    · simp only [if_pos hmem]
      exact .declared hcode hmem
    · simp only [if_neg hmem]
      cases hlookup : scalarNames.lookup code with
      | none =>
        have hcases := lookup_scalarNames_eq_none_iff.mp hlookup
        exact .unknown hcode hmem (by omega)
      | some name =>
        have hcases := mt lookup_scalarNames_eq_none_iff.mpr (hlookup ▸ Option.some_ne_none name)
        exact .scalar hcode hmem (by omega) (mem_scalarNames_of_lookup hlookup)

/-- A slot is left open exactly if there is nothing to name its type by. -/
theorem Slot.typeRef_eq_placeholder_iff {slot : Slot} :
    slot.typeRef = .placeholder ↔ slot.isNameless = true := by
  cases slot with
  | lacking => exact ⟨fun _ => rfl, fun _ => rfl⟩
  | given f =>
    have htype := f.hasType_typeRef
    rw [typeRef, isNameless]
    generalize f.typeRef = type at htype
    cases htype with
    | uncoded hcode hname hne => simp [hcode, hname, hne]
    | declared hcode hmem =>
      have hknown := known_of_declared hmem
      simp [hcode, hknown]
    | scalar hcode _ hknown _ => simp [hcode, hknown]
    | unnamed hcode hname => simp [hcode, hname]
    | unknown hcode _ hrange => simp [hcode, hrange]

/-- The name by which a slot refers to a declared type. -/
def Slot.target? : Slot → Option String
  | .given f => f.target?
  | .lacking => none

theorem Slot.typeRef_of_target {slot : Slot} {target : String} (h : target ∈ slot.target?) :
    slot.typeRef = .named (dotless target) := by
  cases slot with
  | given f => exact Field.typeRef_eq h
  | lacking => cases h

theorem Slot.named_cases {slot : Slot} {text : String} (h : slot.typeRef = .named text) :
    (∃ target ∈ slot.target?, text = dotless target) ∨ ∃ code, (code, text) ∈ scalarNames := by
  cases slot with
  | lacking => cases h
  | given f =>
    have htype := f.hasType_typeRef
    rw [Slot.typeRef] at h
    rw [h] at htype
    rw [Slot.target?, Field.target?]
    cases htype with
    | uncoded hcode hname hne => exact Or.inl ⟨_, by simp [hcode, hname, hne], rfl⟩
    | declared hcode hmem => exact Or.inl ⟨_, by simp [hcode, hmem], rfl⟩
    | scalar _ _ _ hentry => exact Or.inr ⟨_, hentry⟩

private theorem entryType_eq_slot (entry : Message) (name : String) :
    entryType entry name = (entry.slot name).typeRef := by
  rw [entryType, Message.slot]
  cases entry.fieldNamed? name <;> rfl

private theorem Field.declare_types (dialect : Idl.Dialect) (labelled : Bool) (scope : String)
    (nested : List Message) (f : Field) :
    (f.declare dialect labelled scope nested).type.types = (f.slots scope nested).map Slot.typeRef := by
  rw [Field.declare, Field.slots, entryTypeOf?_eq_mapOf?]
  cases f.mapOf? scope nested with
  | none => rfl
  | some entry =>
    simp only [entryType_eq_slot]
    rfl

private theorem writtenFields_perm (m : Message) : (writtenFields m.fields m.oneofs).Perm m.fields := by
  have hfields : writtenFields m.fields m.oneofs = m.layout.fields.map Prod.fst := by
    rw [writtenFields, m.looseFields_eq_layout, Layout.fields, List.map_append, List.map_flatMap,
      Message.layout, List.flatMap_map]
    simp only [m.groupFields_eq_members]
  have hperm := m.layout_fields_perm.map Prod.fst
  rw [List.zipIdx_map_fst, ← hfields] at hperm
  exact hperm

private theorem Placed.declare_types (dialect : Idl.Dialect) (p : Placed) :
    (((p.declare dialect).message.allFields).flatMap (·.type.types)).Perm
      (p.slots.map Slot.typeRef) := by
  obtain ⟨scope, ⟨name, fields, nested, enums, oneofs, options⟩, isWritten⟩ := p
  let m : Message := ⟨name, fields, nested, enums, oneofs, options⟩
  have hall : ((m.declare dialect scope).allFields).flatMap (·.type.types) =
      (writtenFields fields oneofs).flatMap fun f =>
        (f.slots (scope ++ "." ++ name.getD "") nested).map Slot.typeRef := by
    rw [Message.declare, Idl.Message.allFields, writtenFields]
    simp only [List.flatMap_append, List.flatMap_map, List.flatMap_assoc, Field.declare_types]
  rw [Placed.declare, hall, Placed.slots, List.map_flatMap]
  exact (writtenFields_perm m).flatMap_right _

private theorem File.declare_types (f : File) : f.declare.types.Perm (f.slots.map Slot.typeRef) := by
  rw [Idl.File.types, Idl.File.fields, declare_placed, slots, List.map_flatMap, List.flatMap_map,
    List.flatMap_assoc]
  exact List.Perm.flatMap_left _ fun p _ => p.declare_types (dialectOf f.dialect)

theorem File.mem_declare_types {f : File} {type : Idl.TypeRef} :
    type ∈ f.declare.types ↔ ∃ slot ∈ f.slots, slot.typeRef = type := by
  rw [f.declare_types.mem_iff, List.mem_map]

theorem File.namelessTypes_eq_count (f : File) :
    f.namelessTypes = f.declare.types.count .placeholder :=
  f.declare.placeholders_eq

theorem File.namelessTypes_eq_countP (f : File) : f.namelessTypes = f.slots.countP Slot.isNameless := by
  rw [namelessTypes_eq_count, f.declare_types.count_eq, List.count_eq_countP, List.countP_map]
  apply List.countP_congr
  intro slot _
  rw [Function.comp_apply, beq_iff_eq]
  exact Slot.typeRef_eq_placeholder_iff

/-- The placeholders of a file are counted. The types in its text are those of its slots, field by field and
in all: two for a map and one for any other field, and a slot has a placeholder exactly if there is nothing to
name its type by. There are as many placeholders as such slots, and the count is the one that is kept while the
lines of the file are written. -/
structure File.IsCounted (f : File) : Prop where
  slots_of_map : ∀ p ∈ f.written, ∀ field ∈ p.message.fields, ∀ entry,
    field.IsMapOf p.name p.message.nested entry →
      field.slots p.name p.message.nested = [entry.slot "key", entry.slot "value"]
  slots_of_other : ∀ p ∈ f.written, ∀ field ∈ p.message.fields,
    (∀ entry, ¬ field.IsMapOf p.name p.message.nested entry) →
      field.slots p.name p.message.nested = [.given field]
  field_types : ∀ p ∈ f.written, ∀ field ∈ p.message.fields, ∀ labelled,
    (field.declare (dialectOf f.dialect) labelled p.name p.message.nested).type.types =
      (field.slots p.name p.message.nested).map Slot.typeRef
  types_perm : f.declare.types.Perm (f.slots.map Slot.typeRef)
  placeholder_iff : ∀ slot ∈ f.slots, slot.typeRef = .placeholder ↔ slot.isNameless = true
  count_written : f.namelessTypes = f.declare.types.count .placeholder
  count_slots : f.namelessTypes = f.slots.countP Slot.isNameless
  count_emitted : f.emit = ⟨f.declare.lines, f.namelessTypes⟩

theorem File.namelessTypes_isCounted (f : File) : f.IsCounted where
  slots_of_map := fun _ _ _ _ _ hmap => Field.slots_of_isMapOf hmap
  slots_of_other := fun _ _ _ _ hother => Field.slots_of_not_isMapOf hother
  field_types := fun p _ field _ labelled =>
    field.declare_types (dialectOf f.dialect) labelled p.name p.message.nested
  types_perm := f.declare_types
  placeholder_iff := fun _ _ => Slot.typeRef_eq_placeholder_iff
  count_written := f.namelessTypes_eq_count
  count_slots := f.namelessTypes_eq_countP
  count_emitted := f.emit_eq

end Schema

end RpcGateway
