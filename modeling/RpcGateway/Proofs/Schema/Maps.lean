import RpcGateway.Proofs.Schema.Slots
/-!
# Maps and their entry types

The entry type of a map is not written; its field shows the types of the key and the value instead. So the
text refers to nothing that it leaves out exactly if every field that names an entry type of its message has
the code of a message, and no other type names what is not written.
-/
namespace RpcGateway

namespace Idl

/-- The full names of the messages that a file declares. -/
def File.messageNames (f : File) : List String :=
  f.placed.map Placed.name

end Idl

namespace Schema

/-- The entry type that a repeated field of the message `scope` names, whatever its code is. -/
def Field.entryNamed? (scope : String) (nested : List Message) (f : Field) : Option Message :=
  if f.isRepeated then
    nested.find? fun m => m.isEntryType && f.typeName.getD "" == scope ++ "." ++ m.name.getD ""
  else none

/-- The declaration of a field as a map with the key and the value of an entry type. -/
def Field.declareMap (f : Field) (entry : Message) : Idl.Field :=
  ⟨.absent, .map (entryType entry "key") (entryType entry "value"), f.name.getD "", f.number.getD 0⟩

private theorem entryTypeOf?_eq (scope : String) (nested : List Message) (f : Field) :
    entryTypeOf? scope nested f =
      if f.type = some messageCode then f.entryNamed? scope nested else none := by
  rw [entryTypeOf?, Field.entryNamed?]
  by_cases hcode : f.type = some messageCode <;> simp [hcode]

private theorem Field.declare_eq_declareMap_iff (dialect : Idl.Dialect) (labelled : Bool) {scope : String}
    {nested : List Message} {f : Field} {entry : Message}
    (h : entry ∈ f.entryNamed? scope nested) :
    f.declare dialect labelled scope nested = f.declareMap entry ↔ f.type = some messageCode := by
  rw [Field.declare, entryTypeOf?_eq, Option.mem_def.mp h]
  by_cases hcode : f.type = some messageCode <;> simp [hcode, declareMap]

namespace File

def messageNames (f : File) : List String :=
  f.placed.map Placed.name

def writtenNames (f : File) : List String :=
  f.written.map Placed.name

/-- The full names of the entry types in messages, and of what is nested in them. -/
def hiddenNames (f : File) : List String :=
  (f.placed.filter (!·.isWritten)).map Placed.name

private theorem mem_messageNames {f : File} {name : String} :
    name ∈ f.messageNames ↔ name ∈ f.writtenNames ∨ name ∈ f.hiddenNames := by
  simp only [messageNames, writtenNames, hiddenNames, written, List.mem_map, List.mem_filter,
    Bool.not_eq_true']
  constructor
  · rintro ⟨p, hp, rfl⟩
    cases hwritten : p.isWritten with
    | true => exact Or.inl ⟨p, ⟨hp, hwritten⟩, rfl⟩
    | false => exact Or.inr ⟨p, ⟨hp, hwritten⟩, rfl⟩
  · rintro (⟨p, ⟨hp, -⟩, rfl⟩ | ⟨p, ⟨hp, -⟩, rfl⟩) <;> exact ⟨p, hp, rfl⟩

private theorem messageNames_declare (f : File) : f.declare.messageNames = f.writtenNames := by
  rw [Idl.File.messageNames, declare_placed, List.map_map, writtenNames]
  exact List.map_congr_left fun p _ => p.name_declare _

end File

private theorem Message.mem_placed_cases {m : Message} {scope : String} {isWritten : Bool} {p : Placed}
    (h : p ∈ m.placed scope isWritten) : p = ⟨scope, m, isWritten⟩ ∨
      ∃ rest, p.scope = scope ++ "." ++ m.name.getD "" ++ rest := by
  induction m using Message.induction generalizing scope isWritten with
  | step m ih =>
    rw [Message.placed_eq, List.mem_append, List.mem_singleton, List.mem_flatMap] at h
    rcases h with ⟨n, hn, hp⟩ | heq
    · right
      rcases ih n hn hp with rfl | ⟨rest, hrest⟩
      · exact ⟨"", by rw [String.append_empty]⟩
      · refine ⟨"." ++ n.name.getD "" ++ rest, ?_⟩
        rw [hrest]
        simp only [String.append_assoc]
    · exact Or.inl heq

/-- A hidden message stands in another one, so there are two dots in its full name. -/
private theorem File.two_le_count_of_hidden {f : File} {name : String} (h : name ∈ f.hiddenNames) :
    2 ≤ name.toList.count '.' := by
  obtain ⟨p, hp, rfl⟩ := List.mem_map.mp h
  obtain ⟨hplaced, hhidden⟩ := List.mem_filter.mp hp
  obtain ⟨m, hm, hin⟩ := List.mem_flatMap.mp hplaced
  rcases Message.mem_placed_cases hin with rfl | ⟨rest, hrest⟩
  · cases hhidden
  · rw [Placed.name, hrest]
    simp only [String.toList_append, List.count_append]
    have hdot : ".".toList.count '.' = 1 := rfl
    omega

private theorem File.dotted_scalar_notMem {f : File} {code : Int} {text : String}
    (h : (code, text) ∈ scalarNames) : "." ++ text ∉ f.hiddenNames := by
  have hnames : (scalarNames.all fun entry => entry.2.toList.count '.' == 0) = true := by decide
  have hnone : text.toList.count '.' = 0 := eq_of_beq (List.all_eq_true.mp hnames _ h)
  intro hmem
  have hdots := File.two_le_count_of_hidden hmem
  have hone : ".".toList.count '.' = 1 := rfl
  rw [String.toList_append, List.count_append, hnone, hone] at hdots
  omega

private theorem dot_append_dotless {reference : String} (h : isQualified reference = true) :
    "." ++ dotless reference = reference := by
  rw [← String.toList_inj, String.toList_append, toList_of_isQualified h]
  rfl

namespace File

variable {f : File}

/-- Whether the types of a file are referred to by their complete names. -/
def refersByFullNames (f : File) : Bool :=
  f.slots.all fun slot => slot.target?.all isQualified

/-- Whether each repeated field that names an entry type of its message has a code. -/
def codesMaps (f : File) : Bool :=
  f.written.all fun p => p.message.fields.all fun field =>
    (field.entryNamed? p.name p.message.nested).isNone || field.type.isSome

/-- Whether no type refers to a hidden message, unless one that is written has the same full name. -/
def avoidsHidden (f : File) : Bool :=
  f.slots.all fun slot => slot.target?.all fun target =>
    !f.hiddenNames.contains target || f.writtenNames.contains target

/-- Each repeated field that names an entry type of its message, with the code of a message or with none, is
written as a map; and each type that is the full name of a message of the file is declared in the text. -/
structure IsSelfContained (f : File) : Prop where
  maps_written : ∀ p ∈ f.written, ∀ field ∈ p.message.fields,
    ∀ entry ∈ field.entryNamed? p.name p.message.nested,
      field.type = some messageCode ∨ field.type = none →
        ∀ labelled, field.declare (dialectOf f.dialect) labelled p.name p.message.nested =
          field.declareMap entry
  types_declared : ∀ text, .named text ∈ f.declare.types →
    "." ++ text ∈ f.messageNames → "." ++ text ∈ f.declare.messageNames

private theorem codesMaps_iff : f.codesMaps = true ↔ ∀ p ∈ f.written, ∀ field ∈ p.message.fields,
    ∀ entry ∈ field.entryNamed? p.name p.message.nested, field.type ≠ none := by
  simp only [codesMaps, List.all_eq_true, Bool.or_eq_true, Option.isNone_iff_eq_none,
    Option.isSome_iff_ne_none]
  refine forall₂_congr fun p _ => forall₂_congr fun field _ => ?_
  cases field.entryNamed? p.name p.message.nested <;> simp

private theorem avoidsHidden_iff : f.avoidsHidden = true ↔ ∀ slot ∈ f.slots, ∀ target ∈ slot.target?,
    target ∈ f.hiddenNames → target ∈ f.writtenNames := by
  simp only [avoidsHidden, List.all_eq_true, Option.all_eq_true, Bool.or_eq_true, Bool.not_eq_true',
    List.contains_eq_mem, decide_eq_true_eq, decide_eq_false_iff_not, Option.mem_def]
  refine forall₂_congr fun slot _ => forall₂_congr fun target _ => ?_
  exact imp_iff_not_or.symm

private theorem maps_written_iff : f.codesMaps = true ↔ ∀ p ∈ f.written, ∀ field ∈ p.message.fields,
    ∀ entry ∈ field.entryNamed? p.name p.message.nested,
      field.type = some messageCode ∨ field.type = none →
        ∀ labelled, field.declare (dialectOf f.dialect) labelled p.name p.message.nested =
          field.declareMap entry := by
  rw [codesMaps_iff]
  refine forall₂_congr fun p _ => forall₂_congr fun field _ => forall₂_congr fun entry hentry => ?_
  simp only [Field.declare_eq_declareMap_iff _ _ hentry]
  constructor
  · intro hcode hcases _
    exact hcases.resolve_right hcode
  · intro h hnone
    have hcode := h (Or.inr hnone) true
    rw [hnone] at hcode
    cases hcode

private theorem types_declared_iff (h : f.refersByFullNames = true) : f.avoidsHidden = true ↔
    ∀ text, .named text ∈ f.declare.types →
      "." ++ text ∈ f.messageNames → "." ++ text ∈ f.declare.messageNames := by
  have hqualified : ∀ slot ∈ f.slots, ∀ target ∈ slot.target?, "." ++ dotless target = target :=
    fun slot hslot target htarget => dot_append_dotless
      ((Option.all_eq_true _ _).mp (List.all_eq_true.mp h slot hslot) target htarget)
  rw [avoidsHidden_iff, messageNames_declare]
  constructor
  · intro havoids text htype hname
    obtain ⟨slot, hslot, hnamed⟩ := mem_declare_types.mp htype
    refine (mem_messageNames.mp hname).elim id fun hhidden => ?_
    rcases Slot.named_cases hnamed with ⟨target, htarget, rfl⟩ | ⟨code, hscalar⟩
    · rw [hqualified slot hslot target htarget] at hhidden ⊢
      exact havoids slot hslot target htarget hhidden
    · exact absurd hhidden (dotted_scalar_notMem hscalar)
  · intro hdeclared slot hslot target htarget hhidden
    have htype := mem_declare_types.mpr ⟨slot, hslot, Slot.typeRef_of_target htarget⟩
    rw [← hqualified slot hslot target htarget] at hhidden ⊢
    exact hdeclared (dotless target) htype (mem_messageNames.mpr (Or.inr hhidden))

/-- A file whose types are referred to by their complete names is self-contained exactly if each of its maps
has a code and no type refers to what is hidden. -/
theorem isSelfContained_iff (h : f.refersByFullNames = true) :
    f.IsSelfContained ↔ f.codesMaps = true ∧ f.avoidsHidden = true := by
  rw [maps_written_iff, types_declared_iff h]
  exact ⟨fun ⟨hmaps, htypes⟩ => ⟨hmaps, htypes⟩, fun ⟨hmaps, htypes⟩ => ⟨hmaps, htypes⟩⟩

/-- A file with a map in a nested message, whose field has the given code. -/
def stockFile (code : Option Int) : File :=
  let field (name : String) (number label : Int) (code : Option Int) (target : Option String) : Field :=
    ⟨some name, some number, some label, code, target, none, none⟩
  let entry : Message :=
    ⟨some "StockEntry", [field "key" 1 1 (some 9) none,
      field "value" 2 1 (some messageCode) (some ".shop.Item")], [], [], [], some ⟨some true⟩⟩
  let inventory : Message :=
    ⟨some "Inventory", [field "stock" 1 3 code (some ".shop.Store.Inventory.StockEntry")], [entry],
      [], [], none⟩
  ⟨some "shop.proto", some "shop", [], [], [],
    [⟨some "Item", [], [], [], [], none⟩,
      ⟨some "Store", [field "main" 1 1 none (some ".shop.Store.Inventory")], [inventory], [], [], none⟩],
    [], [], none, some "proto3"⟩

theorem isSelfContained_iff_stockFile :
    (stockFile (some messageCode)).refersByFullNames = true ∧
      (stockFile (some messageCode)).codesMaps = true ∧
      (stockFile (some messageCode)).avoidsHidden = true ∧
      (stockFile (some messageCode)).IsSelfContained := by
  have hnames : (stockFile (some messageCode)).refersByFullNames = true := by decide +kernel
  have hcodes : (stockFile (some messageCode)).codesMaps = true := by decide +kernel
  have havoids : (stockFile (some messageCode)).avoidsHidden = true := by decide +kernel
  exact ⟨hnames, hcodes, havoids, (isSelfContained_iff hnames).mpr ⟨hcodes, havoids⟩⟩

/-- Without a code the field is not taken for a map, and its type is not declared. -/
theorem not_isSelfContained_stockFile :
    (stockFile none).refersByFullNames = true ∧ ¬ (stockFile none).IsSelfContained ∧
      (stockFile none).declare.fields.map (·.line.text) =
        ["repeated shop.Store.Inventory.StockEntry stock = 1;", "shop.Store.Inventory main = 1;"] ∧
      (stockFile none).declare.messageNames = [".shop.Item", ".shop.Store.Inventory", ".shop.Store"] := by
  have hnames : (stockFile none).declare.messageNames =
      [".shop.Item", ".shop.Store.Inventory", ".shop.Store"] := by decide +kernel
  refine ⟨by decide +kernel, ?_, by decide +kernel, hnames⟩
  intro h
  have hdeclared := h.types_declared "shop.Store.Inventory.StockEntry" (by decide +kernel)
    (by decide +kernel)
  rw [hnames] at hdeclared
  exact absurd hdeclared (by decide +kernel)

end File

end Schema

end RpcGateway
