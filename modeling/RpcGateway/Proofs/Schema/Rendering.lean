import RpcGateway.Proofs.Idl.Text
import RpcGateway.Proofs.Schema.TypeNames
/-!
# Rendering keeps the shape

Files as compilers write them are declared in printable declarations, and from a declaration the shape can
be read again. So no two such files of different shapes have the same text.
-/
namespace RpcGateway.Schema

open Idl (isIdentifier isDotted)

/-- What holds of a message if it holds of the messages nested in it holds of all messages. -/
theorem Message.induction {motive : Message → Prop}
    (step : ∀ m : Message, (∀ n ∈ m.nested, motive n) → motive m) (m : Message) : motive m := by
  apply step
  intro n hn
  exact Message.induction step n
termination_by m
decreasing_by
  cases m
  have hsize := List.sizeOf_lt_of_mem hn
  simp only [Message.mk.sizeOf_spec] at hsize ⊢
  omega

private theorem areCompilerShaped_eq_all (ms : List Message) :
    areCompilerShaped ms = ms.all Message.isCompilerShaped := by
  induction ms with
  | nil => rfl
  | cons m rest ih => rw [areCompilerShaped, List.all_cons, ih]

theorem declareAll_eq_map (dialect : Idl.Dialect) (scope : String) (ms : List Message) :
    declareAll dialect scope ms =
      (ms.filter (!·.isEntryType)).map (Message.declare dialect scope) := by
  induction ms with
  | nil => rfl
  | cons m rest ih =>
    rw [declareAll, ih]
    cases hentry : m.isEntryType <;> simp [hentry]

private theorem shapesOf_eq_map (dialect : Idl.Dialect) (scope : String) (ms : List Message) :
    shapesOf dialect scope ms = (ms.filter (!·.isEntryType)).map (Message.shape dialect scope) := by
  induction ms with
  | nil => rfl
  | cons m rest ih =>
    rw [shapesOf, ih]
    cases hentry : m.isEntryType <;> simp [hentry]

private theorem Message.isCompilerShaped_iff {m : Message} : m.isCompilerShaped = true ↔
    isNamed m.name = true ∧ (∀ f ∈ m.fields, f.isCompilerShaped = true) ∧
      (∀ n ∈ m.nested, n.isCompilerShaped = true) ∧ (∀ e ∈ m.enums, e.isCompilerShaped = true) ∧
      ∀ o ∈ m.oneofs, isNamed o.name = true := by
  obtain ⟨name, fields, nested, enums, oneofs, options⟩ := m
  simp [Message.isCompilerShaped, areCompilerShaped_eq_all, and_assoc]

/-- The shape that the written type of a field stands for. -/
def shapeOfFieldType : Idl.FieldType → FieldTypeShape
  | .plain type => .single (shapeOfType type)
  | .map key value => .map (shapeOfType key) (shapeOfType value)

/-- The shape that a written field stands for. A map is repeated, though it does not say so. -/
def shapeOfField (labelled : Bool) (f : Idl.Field) : FieldShape where
  label := match f.type with
    | .plain _ => f.label
    | .map _ _ => if labelled then .repeated else .absent
  type := shapeOfFieldType f.type
  name := f.name
  number := f.number

def shapeOfEnum (e : Idl.Enumeration) : EnumShape :=
  ⟨e.name, e.allowAlias, e.values⟩

/-- The shape that a written group of alternatives stands for. -/
def shapeOfOneof (o : Idl.Oneof) : OneofShape :=
  ⟨o.name, o.fields.map (shapeOfField false)⟩

mutual

def shapeOfMessage : Idl.Message → MessageShape
  | ⟨name, enums, messages, oneofs, fields⟩ =>
    ⟨name, enums.map shapeOfEnum, shapesOfMessages messages, oneofs.map shapeOfOneof,
      fields.map (shapeOfField true)⟩

def shapesOfMessages : List Idl.Message → List MessageShape
  | [] => []
  | m :: rest => shapeOfMessage m :: shapesOfMessages rest

end

def shapeOfMethod (m : Idl.Method) : MethodShape :=
  ⟨m.name, "." ++ m.input.type, "." ++ m.output.type, m.input.stream, m.output.stream⟩

def shapeOfFile (f : Idl.File) : FileShape where
  dialect := f.dialect
  package := f.package.getD ""
  imports := f.imports.map shapeOfImport
  goPackage := f.goPackage
  enums := f.enums.map shapeOfEnum
  messages := f.messages.map shapeOfMessage
  services := f.services.map fun s => ⟨s.name, s.methods.map shapeOfMethod⟩

private theorem shapesOfMessages_eq_map (ms : List Idl.Message) :
    shapesOfMessages ms = ms.map shapeOfMessage := by
  induction ms with
  | nil => rfl
  | cons m rest ih => rw [shapesOfMessages, List.map_cons, ih]

private theorem entryType_spec {entry : Message} (h : entry.isCompilerShaped = true) (name : String) :
    (entryType entry name).isPrintable = true ∧
      shapeOfType (entryType entry name) = entry.entryShape name := by
  rw [entryType, Message.entryShape]
  cases hfield : entry.fieldNamed? name with
  | none => exact ⟨rfl, rfl⟩
  | some f =>
    have hmem : f ∈ entry.fields := List.mem_of_find?_eq_some hfield
    exact Field.typeRef_spec ((Message.isCompilerShaped_iff.mp h).2.1 f hmem)

private theorem Field.isNamed_of_isCompilerShaped {f : Field} (h : f.isCompilerShaped = true) :
    isNamed f.name = true := by
  rw [Field.isCompilerShaped, Bool.and_eq_true] at h
  exact h.1

private theorem declared_all {α β γ : Type} (isPrintable : β → Bool) (shapeOf : β → γ) {declare : α → β}
    {shape : α → γ} {xs : List α}
    (h : ∀ x ∈ xs, isPrintable (declare x) = true ∧ shapeOf (declare x) = shape x) :
    (∀ d ∈ xs.map declare, isPrintable d = true) ∧
      (xs.map declare).map shapeOf = xs.map shape := by
  constructor
  · intro d hd
    obtain ⟨x, hx, rfl⟩ := List.mem_map.mp hd
    exact (h x hx).1
  · rw [List.map_map]
    apply List.map_congr_left
    intro x hx
    exact (h x hx).2

variable {dialect : Idl.Dialect} {scope : String} {nested : List Message}

private theorem Field.declare_spec (labelled : Bool) {f : Field} (h : f.isCompilerShaped = true)
    (hnested : ∀ n ∈ nested, n.isCompilerShaped = true) :
    (f.declare dialect labelled scope nested).isPrintable = true ∧
      shapeOfField labelled (f.declare dialect labelled scope nested) =
        f.shape dialect labelled scope nested := by
  have hname : isIdentifier (f.name.getD "").toList = true := isNamed_of_isCompilerShaped h
  rw [Field.declare, Field.shape, entryTypeOf?_eq_mapOf?, Field.labelIn_eq]
  cases hentry : f.mapOf? scope nested with
  | none =>
    obtain ⟨hprintable, hshape⟩ := Field.typeRef_spec h
    refine ⟨?_, ?_⟩
    · simp [Idl.Field.isPrintable, Idl.FieldType.isPrintable, hname, hprintable]
    · simp only [shapeOfField, shapeOfFieldType, hshape]
  | some entry =>
    have hmap := Field.mapOf?_eq_some_iff.mp hentry
    have hmem := hmap.mem
    obtain ⟨hkey, hkeyShape⟩ := entryType_spec (hnested entry hmem) "key"
    obtain ⟨hvalue, hvalueShape⟩ := entryType_spec (hnested entry hmem) "value"
    have hlabel : f.readLabel dialect = .repeated := if_pos hmap.label_eq
    refine ⟨?_, ?_⟩
    · simp [Idl.Field.isPrintable, Idl.FieldType.isPrintable, hname, hkey, hvalue]
    · simp only [shapeOfField, shapeOfFieldType, hkeyShape, hvalueShape, hlabel]

private theorem Enumeration.declare_spec {e : Enumeration} (h : e.isCompilerShaped = true) :
    e.declare.isPrintable = true ∧ shapeOfEnum e.declare = e.shape := by
  rw [Enumeration.isCompilerShaped, Bool.and_eq_true] at h
  obtain ⟨hname, hvalues⟩ := h
  have hidentifier : isIdentifier (e.name.getD "").toList = true := hname
  refine ⟨?_, ?_⟩
  · rw [Idl.Enumeration.isPrintable_iff]
    refine ⟨hidentifier, ?_⟩
    intro value hvalue
    obtain ⟨v, hv, rfl⟩ := List.mem_map.mp hvalue
    exact List.all_eq_true.mp hvalues v hv
  · have halias : (e.options.any fun options => options.allowAlias == some true) =
        (e.options.bind (·.allowAlias)).getD false := by
      cases e.options with
      | none => rfl
      | some options => rcases options with ⟨_ | _ | _⟩ <;> rfl
    rw [shapeOfEnum, Enumeration.declare, Enumeration.shape, halias]

theorem mem_writtenOneofs {fields : List Field} {oneofs : List Oneof} {group : Oneof} {index : Nat} :
    (group, index) ∈ writtenOneofs fields oneofs ↔
      oneofs[index]? = some group ∧ isUnwritten fields index = false := by
  rw [writtenOneofs, List.mem_filter, List.mem_zipIdx_iff_getElem?]
  simp

theorem writtenOneof?_eq_some_iff {fields : List Field} {count index : Nat} {f : Field} :
    writtenOneof? fields count f = some index ↔
      f.oneofIndex = some (index : Int) ∧ index < count ∧ isUnwritten fields index = false := by
  rw [writtenOneof?]
  rcases f.oneofIndex with _ | (n | n)
  · simp
  · simp only [Option.ite_none_right_eq_some, Option.some.injEq, Bool.and_eq_true, decide_eq_true_eq,
      Bool.not_eq_true', Int.ofNat_eq_natCast, Int.natCast_inj]
    constructor
    · rintro ⟨⟨hlt, hwritten⟩, rfl⟩
      exact ⟨rfl, hlt, hwritten⟩
    · rintro ⟨rfl, hlt, hwritten⟩
      exact ⟨⟨hlt, hwritten⟩, rfl⟩
  · simp

private theorem groupFields_eq {fields : List Field} {oneofs : List Oneof} {group : Oneof} {index : Nat}
    (h : (group, index) ∈ writtenOneofs fields oneofs) :
    groupFields fields oneofs.length index = fieldsOf fields index := by
  obtain ⟨hgroup, hwritten⟩ := mem_writtenOneofs.mp h
  have hlt : index < oneofs.length := (List.getElem?_eq_some_iff.mp hgroup).1
  apply List.filter_congr
  intro f _
  rw [Bool.eq_iff_iff, beq_iff_eq, beq_iff_eq, writtenOneof?_eq_some_iff]
  simp [hlt, hwritten]

private theorem looseFields_eq (fields : List Field) (oneofs : List Oneof) :
    looseFields fields oneofs.length = remainingFields fields oneofs := by
  rw [looseFields, remainingFields, ← writtenOneofs_eq]
  apply List.filter_congr
  intro f _
  rw [Bool.eq_iff_iff, Option.isNone_iff_eq_none, Option.eq_none_iff_forall_ne_some,
    List.all_eq_true]
  constructor
  · intro h pair hpair
    obtain ⟨group, index⟩ := pair
    obtain ⟨hgroup, hwritten⟩ := mem_writtenOneofs.mp hpair
    rw [bne_iff_ne]
    intro hindex
    exact h index (writtenOneof?_eq_some_iff.mpr
      ⟨hindex, (List.getElem?_eq_some_iff.mp hgroup).1, hwritten⟩)
  · intro h index hindex
    obtain ⟨hposition, hlt, hwritten⟩ := writtenOneof?_eq_some_iff.mp hindex
    have hmem := mem_writtenOneofs.mpr ⟨List.getElem?_eq_getElem hlt, hwritten⟩
    exact bne_iff_ne.mp (h _ hmem) hposition

private theorem fields_spec (dialect : Idl.Dialect) (labelled : Bool) (scope : String) {fields : List Field}
    (h : ∀ f ∈ fields, f.isCompilerShaped = true)
    (hnested : ∀ n ∈ nested, n.isCompilerShaped = true) :
    (∀ d ∈ fields.map (·.declare dialect labelled scope nested), d.isPrintable = true) ∧
      (fields.map (·.declare dialect labelled scope nested)).map (shapeOfField labelled) =
        fields.map (·.shape dialect labelled scope nested) :=
  declared_all Idl.Field.isPrintable (shapeOfField labelled) fun f hf =>
    Field.declare_spec labelled (h f hf) hnested

/-- The declaration of a message by its parts. -/
theorem Message.declare_eq (dialect : Idl.Dialect) (scope : String) (m : Message) :
    m.declare dialect scope =
      let inner := scope ++ "." ++ m.name.getD ""
      ⟨m.name.getD "", m.enums.map Enumeration.declare,
        (m.nested.filter (!·.isEntryType)).map (Message.declare dialect inner),
        (authoredOneofs m.fields m.oneofs).map fun (group, index) =>
          ⟨group.name.getD "",
            (fieldsOf m.fields index).map (·.declare dialect false inner m.nested)⟩,
        (remainingFields m.fields m.oneofs).map (·.declare dialect true inner m.nested)⟩ := by
  obtain ⟨name, fields, nested, enums, oneofs, options⟩ := m
  rw [Message.declare, declareAll_eq_map, looseFields_eq]
  simp only [← writtenOneofs_eq]
  congr 1
  apply List.map_congr_left
  rintro ⟨group, index⟩ hmem
  simp only [groupFields_eq hmem]

private theorem Message.shape_eq (dialect : Idl.Dialect) (scope : String) (m : Message) :
    m.shape dialect scope =
      let inner := scope ++ "." ++ m.name.getD ""
      ⟨m.name.getD "", m.enums.map Enumeration.shape,
        (m.nested.filter (!·.isEntryType)).map (Message.shape dialect inner),
        (authoredOneofs m.fields m.oneofs).map fun (group, index) =>
          ⟨group.name.getD "",
            (fieldsOf m.fields index).map (·.shape dialect false inner m.nested)⟩,
        (remainingFields m.fields m.oneofs).map (·.shape dialect true inner m.nested)⟩ := by
  obtain ⟨name, fields, nested, enums, oneofs, options⟩ := m
  rw [Message.shape, shapesOf_eq_map]

private theorem Message.declare_spec (dialect : Idl.Dialect) (scope : String) {m : Message}
    (h : m.isCompilerShaped = true) :
    (m.declare dialect scope).isPrintable = true ∧
      shapeOfMessage (m.declare dialect scope) = m.shape dialect scope := by
  induction m using Message.induction generalizing scope with
  | step m ih =>
    obtain ⟨hname, hfields, hnested, henums, honeofs⟩ := Message.isCompilerShaped_iff.mp h
    have hidentifier : isIdentifier (m.name.getD "").toList = true := hname
    let inner := scope ++ "." ++ m.name.getD ""
    have henum := declared_all Idl.Enumeration.isPrintable shapeOfEnum fun e he =>
      Enumeration.declare_spec (henums e he)
    have hinner := declared_all Idl.Message.isPrintable shapeOfMessage
      fun n (hn : n ∈ m.nested.filter (!·.isEntryType)) =>
        have hmem := (List.mem_filter.mp hn).1
        ih n hmem inner (hnested n hmem)
    have hloose := fields_spec dialect true inner
      (fun f (hf : f ∈ remainingFields m.fields m.oneofs) => hfields f (List.mem_filter.mp hf).1)
      hnested
    have hgroups := fun index : Nat => fields_spec dialect false inner
      (fun f (hf : f ∈ fieldsOf m.fields index) => hfields f (List.mem_filter.mp hf).1) hnested
    rw [Message.declare_eq, Message.shape_eq]
    constructor
    · refine Idl.Message.isPrintable_iff.mpr ⟨hidentifier, henum.1, hinner.1, ?_, hloose.1⟩
      intro d hd
      obtain ⟨⟨group, index⟩, hgroup, rfl⟩ := List.mem_map.mp hd
      have hmem := List.mem_of_getElem? (mem_authoredOneofs.mp hgroup).1
      exact Idl.Oneof.isPrintable_iff.mpr ⟨honeofs group hmem, (hgroups index).1⟩
    · rw [shapeOfMessage, shapesOfMessages_eq_map, henum.2, hinner.2, hloose.2, List.map_map]
      congr 1
      apply List.map_congr_left
      rintro ⟨group, index⟩ -
      exact congrArg (OneofShape.mk (group.name.getD "")) (hgroups index).2

private theorem Method.declare_spec {m : Method} (h : m.isCompilerShaped = true) :
    m.declare.isPrintable = true ∧ shapeOfMethod m.declare = m.shape := by
  rw [Method.isCompilerShaped, Bool.and_eq_true, Bool.and_eq_true] at h
  obtain ⟨⟨hname, hinput⟩, houtput⟩ := h
  have hidentifier : isIdentifier (m.name.getD "").toList = true := hname
  obtain ⟨input, hinputEq, hinputDotted, -⟩ := isReference_iff.mp hinput
  obtain ⟨output, houtputEq, houtputDotted, -⟩ := isReference_iff.mp houtput
  have hinputText : dotless (m.input.getD "") = input := by
    rw [hinputEq, dotless_reference hinputDotted]
  have houtputText : dotless (m.output.getD "") = output := by
    rw [houtputEq, dotless_reference houtputDotted]
  have hstream : ∀ flag : Option Bool, (flag == some true) = flag.getD false := by
    intro flag
    rcases flag with _ | _ | _ <;> rfl
  refine ⟨?_, ?_⟩
  · rw [Idl.Method.isPrintable_iff]
    refine ⟨hidentifier, ?_, ?_⟩
    · rw [Method.declare, hinputText]
      exact hinputDotted
    · rw [Method.declare, houtputText]
      exact houtputDotted
  · rw [shapeOfMethod, Method.declare, Method.shape, hinputText, houtputText, hstream, hstream,
      hinputEq, houtputEq]

private theorem Service.declare_spec {s : Service} (h : s.isCompilerShaped = true) :
    s.declare.isPrintable = true ∧
      ServiceShape.mk s.declare.name (s.declare.methods.map shapeOfMethod) = s.shape := by
  rw [Service.isCompilerShaped, Bool.and_eq_true] at h
  obtain ⟨hname, hmethods⟩ := h
  have hidentifier : isIdentifier (s.name.getD "").toList = true := hname
  have hmethod := declared_all Idl.Method.isPrintable shapeOfMethod fun m hm =>
    Method.declare_spec (List.all_eq_true.mp hmethods m hm)
  refine ⟨Idl.Service.isPrintable_iff.mpr ⟨hidentifier, hmethod.1⟩, ?_⟩
  rw [Service.shape, Service.declare, hmethod.2]

private theorem File.isCompilerShaped_iff {f : File} : f.isCompilerShaped = true ↔
    (f.package.getD "" = "" ∨ isDotted (f.package.getD "").toList = true) ∧
      (∀ m ∈ f.messages, m.isCompilerShaped = true) ∧
      (∀ e ∈ f.enums, e.isCompilerShaped = true) ∧ ∀ s ∈ f.services, s.isCompilerShaped = true := by
  simp [File.isCompilerShaped, and_assoc]

private theorem File.declare_spec {f : File} (h : f.isCompilerShaped = true) :
    f.declare.isPrintable = true ∧ shapeOfFile f.declare = f.shape := by
  obtain ⟨hpackage, hmessages, henums, hservices⟩ := File.isCompilerShaped_iff.mp h
  have hpackage' : (∀ p ∈ f.package?, isDotted p.toList = true) ∧
      f.package?.getD "" = f.package.getD "" := by
    rw [File.package?]
    cases hname : f.package with
    | none => simp
    | some package =>
      rw [hname, Option.getD_some] at hpackage
      by_cases hempty : package = ""
      · subst hempty
        simp [Option.filter]
      · simpa [Option.filter, hempty] using hpackage.resolve_left hempty
  have henum := declared_all Idl.Enumeration.isPrintable shapeOfEnum fun e he =>
    Enumeration.declare_spec (henums e he)
  have hmessage := declared_all Idl.Message.isPrintable shapeOfMessage fun m hm =>
    Message.declare_spec (dialectOf f.dialect) f.scope (hmessages m hm)
  have hservice := declared_all Idl.Service.isPrintable
    (fun s => (⟨s.name, s.methods.map shapeOfMethod⟩ : ServiceShape)) fun s hs =>
      Service.declare_spec (hservices s hs)
  refine ⟨Idl.File.isPrintable_iff.mpr ⟨hpackage'.1, henum.1, hmessage.1, hservice.1⟩, ?_⟩
  rw [shapeOfFile, File.declare, File.shape, ← File.dialectOf_eq, henum.2, hmessage.2, hservice.2,
    hpackage'.2, List.map_map]
  congr 1
  exact List.map_congr_left fun i _ => shapeOfImport_visibility f i.1 i.2

/-- Files as compilers write them have the same shape if they have the same text. -/
theorem File.shape_eq_of_render_eq {a b : File} (ha : a.isCompilerShaped = true)
    (hb : b.isCompilerShaped = true) (h : a.render = b.render) : a.shape = b.shape := by
  obtain ⟨hprintable, hshape⟩ := File.declare_spec ha
  obtain ⟨hprintable', hshape'⟩ := File.declare_spec hb
  have hsame : a.declare = b.declare := Idl.File.text_injective hprintable hprintable' h
  rw [← hshape, ← hshape', hsame]

/-- A file with a map, whose entry type and whose own name are not written. -/
def mapFile (fileName entryName : String) : File :=
  let field (name : String) (number code : Int) : Field :=
    ⟨some name, some number, some 1, some code, none, none, none⟩
  let entry : Message :=
    ⟨some entryName, [field "key" 1 9, field "value" 2 5], [], [], [], some ⟨some true⟩⟩
  let counts : Field :=
    ⟨some "counts", some 1, some repeatedCode, some messageCode, some (".shop.Cart." ++ entryName),
      none, none⟩
  let choice : Field := { field "code" 2 9 with oneofIndex := some 0 }
  ⟨some fileName, some "shop", ["a\".proto"], [0], [],
    [⟨some "Cart", [counts, choice, field "total" 3 4], [entry], [], [⟨some "kind"⟩], none⟩],
    [⟨some "State", [⟨some "NONE", some 0⟩], none⟩],
    [⟨some "Shop", [⟨some "Buy", some ".shop.Cart", some ".shop.Cart", none, some true⟩]⟩],
    some ⟨some "example/shop"⟩, some "proto3"⟩

theorem shape_eq_mapFile :
    (mapFile "a.proto" "CountsEntry").isCompilerShaped = true ∧
      (mapFile "b.proto" "Entry").isCompilerShaped = true ∧
      (mapFile "a.proto" "CountsEntry").render = (mapFile "b.proto" "Entry").render ∧
      (mapFile "a.proto" "CountsEntry").shape = (mapFile "b.proto" "Entry").shape := by
  have ha : (mapFile "a.proto" "CountsEntry").isCompilerShaped = true := by decide +kernel
  have hb : (mapFile "b.proto" "Entry").isCompilerShaped = true := by decide +kernel
  have hrender : (mapFile "a.proto" "CountsEntry").render = (mapFile "b.proto" "Entry").render :=
    congrArg Idl.File.text (by rfl)
  exact ⟨ha, hb, hrender, File.shape_eq_of_render_eq ha hb hrender⟩

end RpcGateway.Schema
