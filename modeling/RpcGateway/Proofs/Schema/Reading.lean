import RpcGateway.Idl.OfSchema
/-!
# Reading a descriptor

What the members of a descriptor say by themselves: the dialect of a file and how it imports, the label of a
field, the groups of alternatives that somebody wrote, and the entry type of a map. The declarations of a file
say the same.
-/
namespace RpcGateway.Schema

/-- The dialect that a file names; the oldest, unless it names one that is known. -/
def File.namedDialect (f : File) : Idl.Dialect :=
  if f.dialect = some "proto3" then .proto3
  else if f.dialect = some "editions" then .editions
  else .proto2

theorem File.dialectOf_eq (f : File) : dialectOf f.dialect = f.namedDialect := by
  rw [dialectOf, namedDialect]
  cases f.dialect with
  | none => rfl
  | some name =>
    simp only [Option.getD_some, Option.some.injEq]
    split
    · rfl
    · rfl
    · rename_i hproto3 heditions
      rw [if_neg hproto3, if_neg heditions]

/-- An import. One that is public is not weak as well. -/
structure ImportShape where
  path : String
  isPublic : Bool
  isWeak : Bool
  deriving DecidableEq, Repr

def File.importShape (f : File) (path : String) (index : Nat) : ImportShape where
  path := path
  isPublic := decide ((index : Int) ∈ f.publicDependencies)
  isWeak := decide ((index : Int) ∈ f.weakDependencies ∧ (index : Int) ∉ f.publicDependencies)

def shapeOfImport (i : Idl.Import) : ImportShape :=
  ⟨i.path, i.visibility == .forwarded, i.visibility == .weak⟩

theorem shapeOfImport_visibility (f : File) (path : String) (index : Nat) :
    shapeOfImport ⟨f.visibility index, path⟩ = f.importShape path index := by
  rw [shapeOfImport, File.importShape, File.visibility]
  by_cases hpublic : (index : Int) ∈ f.publicDependencies <;>
    by_cases hweak : (index : Int) ∈ f.weakDependencies <;> simp [hpublic, hweak]

/-- The label of a field in its dialect: only the oldest tells what is required, and there is one in which a
field is optional without a word. -/
def Field.readLabel (dialect : Idl.Dialect) (f : Field) : Idl.Label :=
  if f.label = some 3 then .repeated
  else if f.label = some 2 then (if dialect = .proto2 then .required else .absent)
  else if dialect = .proto2 ∨ dialect = .proto3 ∧ f.proto3Optional = some true then .marked
  else .absent

theorem Field.labelIn_eq (dialect : Idl.Dialect) (f : Field) :
    f.labelIn dialect = f.readLabel dialect := by
  simp only [labelIn, readLabel, isRepeated, isMarkedOptional, beq_iff_eq, repeatedCode, requiredCode]
  cases dialect <;> simp

/-- Whether a group stands for the mark on its members only: it has members, and all of them are marked. -/
def IsSynthetic (fields : List Field) (index : Nat) : Prop :=
  (∃ f ∈ fields, f.oneofIndex = some (index : Int)) ∧
    ∀ f ∈ fields, f.oneofIndex = some (index : Int) → f.isMarkedOptional = true

instance (fields : List Field) (index : Nat) : Decidable (IsSynthetic fields index) :=
  inferInstanceAs (Decidable (_ ∧ _))

private theorem mem_oneofMembers {fields : List Field} {index : Nat} {f : Field} :
    f ∈ oneofMembers fields index ↔ f ∈ fields ∧ f.oneofIndex = some (index : Int) := by
  rw [oneofMembers, List.mem_filter, beq_iff_eq]

theorem isUnwritten_iff {fields : List Field} {index : Nat} :
    isUnwritten fields index = true ↔ IsSynthetic fields index := by
  simp only [isUnwritten, Bool.and_eq_true, Bool.not_eq_true', List.isEmpty_eq_false_iff_exists_mem,
    List.all_eq_true, mem_oneofMembers, IsSynthetic, and_imp]

/-- The groups that somebody wrote, each with its position. -/
def authoredOneofs (fields : List Field) (oneofs : List Oneof) : List (Oneof × Nat) :=
  oneofs.zipIdx.filter fun (_, index) => decide (¬ IsSynthetic fields index)

theorem mem_authoredOneofs {fields : List Field} {oneofs : List Oneof} {group : Oneof} {index : Nat} :
    (group, index) ∈ authoredOneofs fields oneofs ↔
      oneofs[index]? = some group ∧ ¬ IsSynthetic fields index := by
  rw [authoredOneofs, List.mem_filter, List.mem_zipIdx_iff_getElem?]
  simp

theorem writtenOneofs_eq (fields : List Field) (oneofs : List Oneof) :
    writtenOneofs fields oneofs = authoredOneofs fields oneofs := by
  apply List.filter_congr
  intro group _
  rw [Bool.eq_iff_iff, Bool.not_eq_true', decide_eq_true_eq, ← isUnwritten_iff, Bool.not_eq_true]

/-- A field is a map with an entry type: it is repeated and has the code of a message, and the entry type is
the first of those nested in the message `scope` whose full name it has. -/
structure Field.IsMapOf (scope : String) (nested : List Message) (f : Field) (entry : Message) : Prop where
  label_eq : f.label = some 3
  type_eq : f.type = some 11
  first : ∃ before after, nested = before ++ entry :: after ∧ ∀ m ∈ before,
    m.isEntryType = true → f.typeName ≠ some (scope ++ "." ++ m.name.getD "")
  isEntryType : entry.isEntryType = true
  typeName_eq : f.typeName = some (scope ++ "." ++ entry.name.getD "")

theorem Field.IsMapOf.mem {scope : String} {nested : List Message} {f : Field} {entry : Message}
    (h : f.IsMapOf scope nested entry) : entry ∈ nested := by
  obtain ⟨before, after, rfl, -⟩ := h.first
  simp

/-- The entry type of a field that is a map. -/
def Field.mapOf? (scope : String) (nested : List Message) (f : Field) : Option Message :=
  if f.label = some 3 ∧ f.type = some 11 then
    nested.find? fun m => m.isEntryType && f.typeName == some (scope ++ "." ++ m.name.getD "")
  else none

theorem Field.mapOf?_eq_some_iff {scope : String} {nested : List Message} {f : Field}
    {entry : Message} : f.mapOf? scope nested = some entry ↔ f.IsMapOf scope nested entry := by
  rw [mapOf?, Option.ite_none_right_eq_some, List.find?_eq_some_iff_append]
  simp only [Bool.and_eq_true, beq_iff_eq, Bool.not_eq_true', Bool.and_eq_false_imp, beq_eq_false_iff_ne]
  constructor
  · rintro ⟨⟨hlabel, htype⟩, ⟨hentry, hname⟩, hfirst⟩
    exact ⟨hlabel, htype, hfirst, hentry, hname⟩
  · rintro ⟨hlabel, htype, hfirst, hentry, hname⟩
    exact ⟨⟨hlabel, htype⟩, ⟨hentry, hname⟩, hfirst⟩

/-- A full name has a dot, so the name of no type is none. -/
private theorem getD_beq_fullName (name : Option String) (scope s : String) :
    (name.getD "" == scope ++ "." ++ s) = (name == some (scope ++ "." ++ s)) := by
  cases name with
  | some name => rfl
  | none =>
    have hne : "" ≠ scope ++ "." ++ s := by
      intro heq
      have hchars := congrArg String.toList heq
      simp at hchars
    simp [hne]

theorem entryTypeOf?_eq_mapOf? (scope : String) (nested : List Message) (f : Field) :
    entryTypeOf? scope nested f = f.mapOf? scope nested := by
  simp only [entryTypeOf?, Field.mapOf?, Field.isRepeated, Bool.and_eq_true, beq_iff_eq, repeatedCode,
    messageCode, getD_beq_fullName]

end RpcGateway.Schema
