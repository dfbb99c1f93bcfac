import RpcGateway.Proofs.Schema.Slots
import RpcGateway.Proofs.Text.Numeral
/-!
# Fields without a type

A type that cannot be named is left open, except where a field refers to a declared type by no name, or by one
of dots only: there nothing is written and nothing is counted. Without such a field every type has a text, and
a file without placeholders declares each of its fields with all its parts.
-/
namespace RpcGateway

namespace Idl

/-- A field is declared by its type, its name and its number, after its label, and none of them is empty. The
label may be. -/
structure Field.IsComplete (d : Field) : Prop where
  line_eq : d.line.text =
    d.label.text ++ d.type.text ++ " " ++ d.name ++ " = " ++ toString d.number ++ ";"
  types_named : ∀ type ∈ d.type.types, ∃ text, type = .named text ∧ text ≠ ""
  type_ne : d.type.text ≠ ""
  name_ne : d.name ≠ ""
  number_ne : toString d.number ≠ ""

private theorem number_ne_empty (n : Int) : toString n ≠ "" := by
  intro h
  have hchars := congrArg String.toList h
  rw [Int.toString_eq_repr, Int.repr_eq_if] at hchars
  split at hchars
  · exact Numeral.toList_toString_ne_nil n.toNat hchars
  · simp at hchars

private theorem FieldType.text_ne_empty {type : FieldType} (h : ∀ t ∈ type.types, t.text ≠ "") :
    type.text ≠ "" := by
  cases type with
  | plain type => exact h type List.mem_cons_self
  | map key value => simp [FieldType.text, toString]

end Idl

namespace Schema

/-- Whether a type cannot be named: its code is unknown, or it needs a name and has none, or only dots, or
there is no field at all. -/
def Slot.isUnnameable : Slot → Bool
  | .given f =>
    match f.type with
    | some code =>
      if code = messageCode ∨ code = enumCode ∨ code = groupCode then
        (dotless (f.typeName.getD "")).isEmpty
      else decide (code < 1 ∨ 18 < code)
    | none => (dotless (f.typeName.getD "")).isEmpty
  | .lacking => true

private theorem scalarNames_ne_empty {code : Int} {name : String} (h : (code, name) ∈ scalarNames) :
    name ≠ "" := by
  have hnames : (scalarNames.all fun entry => entry.2 != "") = true := by decide
  exact bne_iff_ne.mp (List.all_eq_true.mp hnames _ h)

theorem dotless_empty : dotless "" = "" :=
  rfl

private theorem Slot.isUnnameable_iff {slot : Slot} :
    slot.isUnnameable = true ↔ slot.isNameless = true ∨ slot.typeRef = .named "" := by
  cases slot with
  | lacking => exact ⟨fun _ => Or.inl rfl, fun _ => rfl⟩
  | given f =>
    have htype := f.hasType_typeRef
    rw [isUnnameable, isNameless, typeRef]
    generalize f.typeRef = type at htype
    cases htype with
    | uncoded hcode hname hne => simp [hcode, hname, hne]
    | declared hcode hmem => simp [hcode, hmem, known_of_declared hmem]
    | scalar hcode hnot hknown hentry => simp [hcode, hnot, hknown, scalarNames_ne_empty hentry]
    | unnamed hcode hname => simp [hcode, hname, dotless_empty]
    | unknown hcode hnot hrange => simp [hcode, hnot, hrange]

private theorem TypeRef.text_eq_empty_iff {type : Idl.TypeRef} : type.text = "" ↔ type = .named "" := by
  cases type <;> simp [Idl.TypeRef.text]

/-- Every type in the text of a file has a text, those that cannot be named are placeholders and are counted,
and if there is none then the fields that have names are declared with all their parts. -/
structure File.IsTyped (f : File) : Prop where
  text_ne : ∀ type ∈ f.declare.types, type.text ≠ ""
  placeholder : ∀ slot ∈ f.slots, slot.isUnnameable = true → slot.typeRef = .placeholder
  count_eq : f.namelessTypes = f.slots.countP Slot.isUnnameable
  isComplete : f.namelessTypes = 0 → ∀ d ∈ f.declare.fields, d.name ≠ "" → d.IsComplete

private theorem File.text_ne_empty {f : File}
    (h : ∀ slot ∈ f.slots, slot.isUnnameable = true → slot.isNameless = true)
    {type : Idl.TypeRef} (htype : type ∈ f.declare.types) : type.text ≠ "" := by
  obtain ⟨slot, hslot, rfl⟩ := File.mem_declare_types.mp htype
  intro hempty
  have hnamed := TypeRef.text_eq_empty_iff.mp hempty
  have hnameless := h slot hslot (Slot.isUnnameable_iff.mpr (Or.inr hnamed))
  rw [Slot.typeRef_eq_placeholder_iff.mpr hnameless] at hnamed
  cases hnamed

private theorem File.count_unnameable {f : File}
    (h : ∀ slot ∈ f.slots, slot.isUnnameable = true → slot.isNameless = true) :
    f.namelessTypes = f.slots.countP Slot.isUnnameable := by
  rw [f.namelessTypes_eq_countP]
  apply List.countP_congr
  intro slot hslot
  exact ⟨fun hnameless => Slot.isUnnameable_iff.mpr (Or.inl hnameless), h slot hslot⟩

private theorem File.isComplete_of_no_placeholder {f : File} (hnone : f.namelessTypes = 0)
    (htext : ∀ type ∈ f.declare.types, type.text ≠ "") {d : Idl.Field} (hd : d ∈ f.declare.fields)
    (hname : d.name ≠ "") : d.IsComplete := by
  have hmem : ∀ type ∈ d.type.types, type ∈ f.declare.types := fun type htype =>
    List.mem_flatMap.mpr ⟨d, hd, htype⟩
  refine ⟨rfl, ?_, Idl.FieldType.text_ne_empty fun type htype => htext type (hmem type htype), hname,
    Idl.number_ne_empty d.number⟩
  intro type htype
  cases type with
  | named text => exact ⟨text, rfl, htext _ (hmem _ htype)⟩
  | placeholder =>
    rw [f.namelessTypes_eq_count, List.count_eq_zero] at hnone
    exact absurd (hmem _ htype) hnone

/-- A file is typed exactly if there is nothing by which to name any type that cannot be named: no field has
the code of a declared type without a name, and no name is of dots only. -/
theorem File.isTyped_iff (f : File) :
    f.IsTyped ↔ ∀ slot ∈ f.slots, slot.isUnnameable = true → slot.isNameless = true := by
  constructor
  · intro htyped slot hslot hunnameable
    exact Slot.typeRef_eq_placeholder_iff.mp (htyped.placeholder slot hslot hunnameable)
  · intro h
    have htext : ∀ type ∈ f.declare.types, type.text ≠ "" := fun _ => File.text_ne_empty h
    refine ⟨htext, ?_, File.count_unnameable h, ?_⟩
    · intro slot hslot hunnameable
      exact Slot.typeRef_eq_placeholder_iff.mpr (h slot hslot hunnameable)
    · intro hnone d hd hname
      exact File.isComplete_of_no_placeholder hnone htext hd hname

/-- A file with a field that refers to a message without saying which. -/
def untypedFile : File :=
  ⟨some "shop.proto", some "shop", [], [], [],
    [⟨some "Cart", [⟨some "item", some 1, some 1, some messageCode, none, none, none⟩], [], [], [], none⟩],
    [], [], none, some "proto3"⟩

/-- The line of the field has no type, and nothing is counted. -/
theorem not_isTyped_untypedFile : ¬ untypedFile.IsTyped ∧ untypedFile.namelessTypes = 0 ∧
    untypedFile.declare.fields.map (·.line.text) = [" item = 1;"] := by
  refine ⟨?_, by decide +kernel, by decide +kernel⟩
  intro htyped
  have hempty : Idl.TypeRef.named "" ∈ untypedFile.declare.types := by decide +kernel
  exact htyped.text_ne _ hempty rfl

end Schema

end RpcGateway
