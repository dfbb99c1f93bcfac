import RpcGateway.Proofs.Schema.Rendering
import RpcGateway.Proofs.Schema.Scoping
import Mathlib.Data.List.Forall2
/-!
# References

Where a schema file mentions types, and what is meant there. A descriptor refers to types by their complete
names; its declarations write them without the dot, so that the scopes around them are searched. Both keep to
one order, and what is written means what the descriptor refers to exactly where no scope captures it.
-/
namespace RpcGateway

/-- A mention of a type by a field or method, the member of a scope. The type is what is known of it. -/
structure Mention (α : Type) where
  scope : Schema.FullName
  member : String
  type : α
  deriving DecidableEq, Repr

namespace Idl

def FieldType.types : FieldType → List TypeRef
  | .plain type => [type]
  | .map key value => [key, value]

def Field.mentions (scope : String) (f : Field) : List (Mention TypeRef) :=
  f.type.types.map (⟨Schema.fullName scope, f.name, ·⟩)

mutual

/-- The types that are written in a message, those of the messages nested in it first. -/
def Message.mentions (scope : String) : Message → List (Mention TypeRef)
  | ⟨name, _, messages, oneofs, fields⟩ =>
    let inner := scope ++ "." ++ name
    mentionsOf inner messages ++ (oneofs.flatMap (·.fields) ++ fields).flatMap (·.mentions inner)

def mentionsOf (scope : String) : List Message → List (Mention TypeRef)
  | [] => []
  | m :: rest => m.mentions scope ++ mentionsOf scope rest

end

def Method.mentions (scope : String) (m : Method) : List (Mention TypeRef) :=
  [m.input, m.output].map fun p => ⟨Schema.fullName scope, m.name, .named p.type⟩

/-- The scope in which the declarations of a file stand. -/
def File.scope (f : File) : String :=
  match f.package with
  | some package => "." ++ package
  | none => ""

def File.mentions (f : File) : List (Mention TypeRef) :=
  mentionsOf f.scope f.messages ++
    (f.services.flatMap (·.methods)).flatMap (·.mentions f.scope)

private theorem mentionsOf_eq_flatMap (scope : String) (ms : List Message) :
    mentionsOf scope ms = ms.flatMap (Message.mentions scope) := by
  induction ms with
  | nil => rfl
  | cons m rest ih => rw [mentionsOf, List.flatMap_cons, ih]

end Idl

namespace Schema

/-- The name by which a field refers to a declared type. A field without a code may do so all the same. -/
def Field.target? (f : Field) : Option String :=
  match f.type with
  | none => f.typeName.filter (!·.isEmpty)
  | some code =>
    if code = messageCode ∨ code = enumCode ∨ code = groupCode then some (f.typeName.getD "") else none

/-- What the types of a field refer to: those of the key and the value if it is a map. -/
def Field.targets (scope : String) (nested : List Message) (f : Field) : List (Option String) :=
  match entryTypeOf? scope nested f with
  | some entry => ["key", "value"].map fun name => (entry.fieldNamed? name).bind Field.target?
  | none => [f.target?]

def Field.mentions (scope : String) (nested : List Message) (f : Field) :
    List (Mention (Option String)) :=
  (f.targets scope nested).map (⟨fullName scope, f.name.getD "", ·⟩)

/-- The fields of a message in the order in which they are written: group by group, then the others. -/
def writtenFields (fields : List Field) (oneofs : List Oneof) : List Field :=
  (writtenOneofs fields oneofs).flatMap (fun (_, index) => groupFields fields oneofs.length index) ++
    looseFields fields oneofs.length

mutual

/-- What the types in a message refer to, those of the messages nested in it first. Entry types stand for the
maps that they belong to, and are no mentions of their own. -/
def Message.mentions (scope : String) : Message → List (Mention (Option String))
  | ⟨name, fields, nested, _, oneofs, _⟩ =>
    let inner := scope ++ "." ++ name.getD ""
    mentionsOf inner nested ++ (writtenFields fields oneofs).flatMap (·.mentions inner nested)

def mentionsOf (scope : String) : List Message → List (Mention (Option String))
  | [] => []
  | m :: rest => if m.isEntryType then mentionsOf scope rest else m.mentions scope ++ mentionsOf scope rest

end

def Method.mentions (scope : String) (m : Method) : List (Mention (Option String)) :=
  [m.input, m.output].map fun type => ⟨fullName scope, m.name.getD "", some (type.getD "")⟩

def File.mentions (f : File) : List (Mention (Option String)) :=
  f.messages.flatMap (Message.mentions f.scope) ++
    (f.services.flatMap (·.methods)).flatMap (·.mentions f.scope)

private theorem mentionsOf_eq_flatMap (scope : String) (ms : List Message) :
    mentionsOf scope ms = (ms.filter (!·.isEntryType)).flatMap (Message.mentions scope) := by
  induction ms with
  | nil => rfl
  | cons m rest ih =>
    rw [mentionsOf, ih]
    cases hentry : m.isEntryType <;> simp [hentry]

/-- A mention is written where the descriptor makes it, without the dots before the name. -/
structure IsWritten (written : Mention Idl.TypeRef) (meant : Mention (Option String)) : Prop where
  scope_eq : written.scope = meant.scope
  member_eq : written.member = meant.member
  type_eq : ∀ target ∈ meant.type, written.type = .named (dotless target)

private theorem forall₂_flatMap {α β γ : Type} {R : β → γ → Prop} {xs : List α} {f : α → List β}
    {g : α → List γ} (h : ∀ x ∈ xs, List.Forall₂ R (f x) (g x)) :
    List.Forall₂ R (xs.flatMap f) (xs.flatMap g) := by
  induction xs with
  | nil => exact .nil
  | cons x xs ih =>
    rw [List.forall_mem_cons] at h
    exact List.rel_append h.1 (ih h.2)

theorem Field.typeRef_eq {f : Field} {target : String} (h : target ∈ f.target?) :
    f.typeRef = .named (dotless target) := by
  rw [target?] at h
  rw [typeRef]
  cases hcode : f.type with
  | none =>
    simp only [hcode] at h
    obtain ⟨hname, hnonempty⟩ := Option.filter_eq_some_iff.mp h
    have hfull : target.isEmpty = false := by simpa using hnonempty
    simp only [hname, hfull, if_false, Bool.false_eq_true]
  | some code =>
    simp only [hcode] at h
    obtain ⟨hdeclared, hname⟩ := Option.ite_none_right_eq_some.mp h
    simp only [if_pos hdeclared, Option.some.inj hname]

private theorem entryType_eq {entry : Message} {name target : String}
    (h : target ∈ (entry.fieldNamed? name).bind Field.target?) :
    entryType entry name = .named (dotless target) := by
  obtain ⟨f, hf, htarget⟩ := Option.bind_eq_some_iff.mp h
  simp only [entryType, hf, Field.typeRef_eq htarget]

variable (dialect : Idl.Dialect) (scope : String)

private theorem Field.declare_mentions (labelled : Bool) (nested : List Message) (f : Field) :
    List.Forall₂ IsWritten ((f.declare dialect labelled scope nested).mentions scope)
      (f.mentions scope nested) := by
  rw [Idl.Field.mentions, mentions, targets, declare]
  cases entryTypeOf? scope nested f with
  | none => exact .cons ⟨rfl, rfl, fun _ => typeRef_eq⟩ .nil
  | some entry =>
    exact .cons ⟨rfl, rfl, fun _ => entryType_eq⟩ (.cons ⟨rfl, rfl, fun _ => entryType_eq⟩ .nil)

private theorem fields_mentions (labelled : Bool) (nested : List Message) (fields : List Field) :
    List.Forall₂ IsWritten
      ((fields.map (·.declare dialect labelled scope nested)).flatMap (·.mentions scope))
      (fields.flatMap (·.mentions scope nested)) := by
  rw [List.flatMap_map]
  exact forall₂_flatMap fun f _ => f.declare_mentions dialect scope labelled nested

private theorem Message.declare_mentions (m : Message) :
    List.Forall₂ IsWritten ((m.declare dialect scope).mentions scope) (m.mentions scope) := by
  induction m using Message.induction generalizing scope with
  | step m ih =>
    obtain ⟨name, fields, nested, enums, oneofs, options⟩ := m
    let inner := scope ++ "." ++ name.getD ""
    rw [declare, Idl.Message.mentions, mentions, Idl.mentionsOf_eq_flatMap, mentionsOf_eq_flatMap,
      declareAll_eq_map, writtenFields, List.flatMap_map, List.flatMap_map, List.flatMap_append,
      List.flatMap_append, List.flatMap_assoc, List.flatMap_assoc]
    refine List.rel_append ?inside (List.rel_append ?groups ?loose)
    case inside =>
      exact forall₂_flatMap fun n hn => ih n (List.mem_filter.mp hn).1 inner
    case groups =>
      exact forall₂_flatMap fun _ _ => fields_mentions dialect inner false nested _
    case loose => exact fields_mentions dialect inner true nested _

private theorem Method.declare_mentions (m : Method) :
    List.Forall₂ IsWritten (m.declare.mentions scope) (m.mentions scope) := by
  have written (type : String) : IsWritten ⟨fullName scope, m.name.getD "", .named (dotless type)⟩
      ⟨fullName scope, m.name.getD "", some type⟩ := by
    refine ⟨rfl, rfl, ?_⟩
    intro target htarget
    rw [Option.mem_some_iff.mp htarget]
  exact .cons (written _) (.cons (written _) .nil)

theorem File.scope_declare (f : File) : f.declare.scope = f.scope := by
  cases hpackage : f.package? <;> simp [Idl.File.scope, scope, declare, hpackage]

private theorem File.declare_mentions (f : File) :
    List.Forall₂ IsWritten f.declare.mentions f.mentions := by
  rw [Idl.File.mentions, mentions, scope_declare, Idl.mentionsOf_eq_flatMap, declare]
  refine List.rel_append ?messages ?services
  case messages =>
    rw [List.flatMap_map]
    exact forall₂_flatMap fun m _ => m.declare_mentions (dialectOf f.dialect) f.scope
  case services =>
    rw [List.flatMap_map, List.flatMap_assoc, List.flatMap_assoc]
    refine forall₂_flatMap fun s _ => ?_
    rw [Service.declare, List.flatMap_map]
    exact forall₂_flatMap fun m _ => m.declare_mentions f.scope

namespace Closure

variable {c : Closure}

/-- Every type that the files of a closure mention is referred to by a complete name, and declared in it. -/
def RefersInside (c : Closure) : Prop :=
  ∀ f ∈ c.files, ∀ m ∈ f.mentions, ∀ target ∈ m.type,
    isQualified target = true ∧ fullName target ∈ c.typeNames

instance : Decidable c.RefersInside :=
  inferInstanceAs (Decidable (∀ f ∈ c.files, ∀ m ∈ f.mentions, ∀ target ∈ m.type,
    isQualified target = true ∧ fullName target ∈ c.typeNames))

/-- A type as it is written means, where it is written, the type that is referred to. -/
def Means (c : Closure) (written : Mention Idl.TypeRef) (target : String) : Prop :=
  c.resolve written.scope (partsOf written.type.text) = some (fullName target)

/-- A mention is written where the descriptor makes it, and means what is referred to exactly if no scope
further in captures the name. -/
structure MeansUnlessCaptured (c : Closure) (written : Mention Idl.TypeRef)
    (meant : Mention (Option String)) : Prop where
  scope_eq : written.scope = meant.scope
  member_eq : written.member = meant.member
  means_iff : ∀ target ∈ meant.type,
    (c.Means written target ↔ c.IsUncaptured meant.scope (fullName target))

/-- The types that the declaration of a file mentions are those that its descriptor mentions, one by one, and
each means what the descriptor refers to exactly if it is not captured. -/
theorem mentions_mean_iff {f : File} (hf : f ∈ c.files) (h : c.RefersInside) :
    List.Forall₂ c.MeansUnlessCaptured f.declare.mentions f.mentions := by
  have hwritten := f.declare_mentions
  refine List.forall₂_iff_zip.mpr ⟨hwritten.length_eq, ?_⟩
  intro written meant hpair
  obtain ⟨hscope, hmember, htype⟩ := List.forall₂_zip hwritten hpair
  refine ⟨hscope, hmember, ?_⟩
  intro target htarget
  obtain ⟨hqualified, hdeclared⟩ := h f hf meant (List.of_mem_zip hpair).2 target htarget
  rw [Means, htype target htarget, hscope, Idl.TypeRef.text, partsOf_dotless hqualified,
    resolve_eq_self_iff hdeclared]

/-- A file with a message that holds one of the package's name, and uses types of the package. -/
def overlappingFile : File :=
  let field (name : String) (number label : Int) (target : String) : Field :=
    ⟨some name, some number, some label, some messageCode, some target, none, none⟩
  let item : Message := ⟨some "Item", [], [], [], [], none⟩
  let inner : Message := ⟨some "shop", [], [item], [], [], none⟩
  let entry : Message :=
    ⟨some "PartsEntry", [⟨some "key", some 1, some 1, some 9, none, none, none⟩,
      field "value" 2 1 ".shop.Item"], [], [], [], some ⟨some true⟩⟩
  ⟨some "shop.proto", some "shop", [], [], [],
    [item, ⟨some "Order", [field "item" 1 1 ".shop.Item"], [inner], [], [], none⟩,
      ⟨some "Kit", [field "parts" 1 3 ".shop.Kit.PartsEntry"], [entry], [], [], none⟩],
    [], [⟨some "Shop", [⟨some "Buy", some ".shop.Kit", some ".shop.Order", none, none⟩]⟩],
    none, some "proto3"⟩

def overlapping : Closure :=
  ⟨[overlappingFile], [], by decide⟩

private theorem refersInside_overlapping : overlapping.RefersInside := by
  decide +kernel

theorem mentions_mean_iff_overlapping :
    overlappingFile ∈ overlapping.files ∧ overlapping.RefersInside ∧
      List.Forall₂ overlapping.MeansUnlessCaptured overlappingFile.declare.mentions
        overlappingFile.mentions :=
  have hmem : overlappingFile ∈ overlapping.files := List.mem_singleton_self overlappingFile
  ⟨hmem, refersInside_overlapping, mentions_mean_iff hmem refersInside_overlapping⟩

/-- The field of the order is met as a field of the message that stands inside the order. -/
theorem not_means_overlapping :
    overlapping.RefersInside ∧ overlappingFile ∈ overlapping.files ∧
      overlapping.resolve ["shop", "Order"] ["shop", "Item"] =
        some ["shop", "Order", "shop", "Item"] ∧
      ¬ List.Forall₂ (fun written meant => ∀ target ∈ meant.type, overlapping.Means written target)
        overlappingFile.declare.mentions overlappingFile.mentions := by
  have hresolved : overlapping.resolve ["shop", "Order"] ["shop", "Item"] =
      some ["shop", "Order", "shop", "Item"] := by decide +kernel
  refine ⟨refersInside_overlapping, List.mem_singleton_self _, hresolved, ?_⟩
  intro hall
  have hpair : (⟨["shop", "Order"], "item", .named "shop.Item"⟩,
      ⟨["shop", "Order"], "item", some ".shop.Item"⟩) ∈
        overlappingFile.declare.mentions.zip overlappingFile.mentions := by decide +kernel
  have hmeans := List.forall₂_zip hall hpair ".shop.Item" rfl
  have hparts : partsOf "shop.Item" = ["shop", "Item"] ∧
      fullName ".shop.Item" = ["shop", "Item"] := by decide +kernel
  rw [Means, Idl.TypeRef.text, hparts.1, hparts.2, hresolved] at hmeans
  exact absurd hmeans (by decide)

end Closure

end Schema

end RpcGateway
