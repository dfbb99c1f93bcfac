import RpcGateway.Proofs.Idl.Words
/-!
# Reading lines back

The lines inside blocks. A field is a sentence whose words are its label, its type in one word or two, its
name and the equals sign; the label and a map's type can be told apart because no label has a bracket.
-/
namespace RpcGateway.Idl

open Cut (at_mark)

/-- A line that neither starts with a blank nor goes on after its end. -/
structure Line.IsClean (l : Line) : Prop where
  noBreak : '\n' ∉ l.text.toList
  noBlank : l.text.toList.head? ≠ some ' '

def Label.words : Label → List (List Char)
  | .absent => []
  | .required => ["required".toList]
  | .repeated => ["repeated".toList]
  | .marked => ["optional".toList]

def FieldType.words : FieldType → List (List Char)
  | .plain type => [type.text.toList]
  | .map key value => ["map<".toList ++ key.text.toList ++ [','], value.text.toList ++ ['>']]

def Field.words (f : Field) : List (List Char) :=
  f.label.words ++ f.type.words ++ [f.name.toList, ['=']]

/-- The end of the line of a field or a value. -/
def ending (number : Int) : List Char :=
  (toString number).toList ++ [';']

theorem Field.text_line (f : Field) : f.line.text.toList = sentence f.words (ending f.number) := by
  obtain ⟨label, type, name, number⟩ := f
  cases label <;> cases type <;>
    simp [Field.line, Field.words, Label.words, FieldType.words, Label.text, FieldType.text, sentence,
      ending, String.toList_append, toString]

private theorem ending_injective {m n : Int} (h : ending m = ending n) : m = n :=
  number_injective (List.append_cancel_right h)

private theorem TypeRef.isWord {type : TypeRef} (h : type.isPrintable = true) :
    IsWord type.text.toList := by
  cases type with
  | named text => exact isWord_of_isDotted (TypeRef.isPrintable_named_iff.mp h).1
  | placeholder => exact ⟨by decide, by decide, by decide⟩

private theorem TypeRef.text_injective {a b : TypeRef} (ha : a.isPrintable = true) (hb : b.isPrintable = true)
    (h : a.text = b.text) : a = b := by
  cases a with
  | named text =>
    cases b with
    | named other =>
      cases h
      rfl
    | placeholder => exact absurd h (TypeRef.isPrintable_named_iff.mp ha).2
  | placeholder =>
    cases b with
    | named other => exact absurd h.symm (TypeRef.isPrintable_named_iff.mp hb).2
    | placeholder => rfl

private theorem Label.isWord_words {label : Label} {word : List Char} (h : word ∈ label.words) :
    IsWord word := by
  cases label with
  | absent => cases h
  | required | repeated | marked =>
    cases List.mem_singleton.mp h
    exact ⟨by decide, by decide, by decide⟩

private theorem FieldType.isWord_words {type : FieldType} (h : type.isPrintable = true) {word : List Char}
    (hword : word ∈ type.words) : IsWord word := by
  cases type with
  | plain type =>
    cases List.mem_singleton.mp hword
    exact TypeRef.isWord h
  | map key value =>
    rw [FieldType.isPrintable, Bool.and_eq_true] at h
    have hopen : IsWord "map<".toList := ⟨by decide, by decide, by decide⟩
    have hcomma : IsWord [','] := ⟨by decide, by decide, by decide⟩
    have hclose : IsWord ['>'] := ⟨by decide, by decide, by decide⟩
    rw [FieldType.words, List.mem_cons, List.mem_singleton] at hword
    rcases hword with rfl | rfl
    · exact (hopen.append (TypeRef.isWord h.1)).append hcomma
    · exact (TypeRef.isWord h.2).append hclose

private theorem Field.isPrintable_iff {f : Field} : f.isPrintable = true ↔
    isIdentifier f.name.toList = true ∧ f.type.isPrintable = true ∧
      ∀ key value, f.type = .map key value → f.label = .absent := by
  obtain ⟨label, type, name, number⟩ := f
  cases type <;> simp [Field.isPrintable, and_assoc]

private theorem isWord_equals : IsWord ['='] := ⟨by decide, by decide, by decide⟩

theorem Field.isWord_words {f : Field} (h : f.isPrintable = true) {word : List Char}
    (hword : word ∈ f.words) : IsWord word := by
  obtain ⟨hname, htype, -⟩ := Field.isPrintable_iff.mp h
  rw [Field.words, List.mem_append, List.mem_append, List.mem_cons, List.mem_singleton] at hword
  rcases hword with (hlabel | hin) | rfl | rfl
  · exact Label.isWord_words hlabel
  · exact FieldType.isWord_words htype hin
  · exact isWord_of_isIdentifier hname
  · exact isWord_equals

private theorem Label.words_injective {a b : Label} (h : a.words = b.words) : a = b := by
  cases a <;> cases b <;> first | rfl | exact absurd h (by decide)

private theorem Label.words_ne_map (label : Label) (key value : TypeRef) (other : List Char) :
    label.words ++ [other] ≠ (FieldType.map key value).words := by
  intro h
  cases label with
  | absent => cases h
  | required | repeated | marked =>
    have hword := (List.cons.inj h).1
    have hbracket : '<' ∈ "map<".toList ++ key.text.toList ++ [','] := by simp
    rw [← hword] at hbracket
    exact absurd hbracket (by decide)

private theorem FieldType.map_injective {key value key' value' : TypeRef}
    (hkey : key.isPrintable = true) (hvalue : value.isPrintable = true)
    (hkey' : key'.isPrintable = true) (hvalue' : value'.isPrintable = true)
    (h : (FieldType.map key value).words = (FieldType.map key' value').words) :
    key = key' ∧ value = value' := by
  simp only [FieldType.words, List.cons.injEq, and_true] at h
  have hkeys := List.append_cancel_left (List.append_cancel_right h.1)
  have hvalues := List.append_cancel_right h.2
  exact ⟨TypeRef.text_injective hkey hkey' (String.toList_inj.mp hkeys),
    TypeRef.text_injective hvalue hvalue' (String.toList_inj.mp hvalues)⟩

private theorem Field.label_type_injective {a b : Field} (ha : a.isPrintable = true)
    (hb : b.isPrintable = true) (h : a.label.words ++ a.type.words = b.label.words ++ b.type.words) :
    a.label = b.label ∧ a.type = b.type := by
  obtain ⟨-, htype, hmap⟩ := Field.isPrintable_iff.mp ha
  obtain ⟨-, htype', hmap'⟩ := Field.isPrintable_iff.mp hb
  cases hfirst : a.type with
  | plain type =>
    cases hsecond : b.type with
    | plain other =>
      rw [hfirst, hsecond] at h
      obtain ⟨hlabels, htypes⟩ := List.append_inj' h rfl
      simp only [FieldType.words, List.cons.injEq, and_true] at htypes
      rw [hfirst] at htype
      rw [hsecond] at htype'
      have hsame := TypeRef.text_injective htype htype' (String.toList_inj.mp htypes)
      exact ⟨Label.words_injective hlabels, by rw [hsame]⟩
    | map key value =>
      rw [hfirst, hsecond, hmap' key value hsecond] at h
      exact absurd h (Label.words_ne_map _ _ _ _)
  | map key value =>
    cases hsecond : b.type with
    | plain other =>
      rw [hfirst, hsecond, hmap key value hfirst] at h
      exact absurd h.symm (Label.words_ne_map _ _ _ _)
    | map key' value' =>
      rw [hfirst, hsecond, hmap key value hfirst, hmap' key' value' hsecond] at h
      rw [hfirst, FieldType.isPrintable, Bool.and_eq_true] at htype
      rw [hsecond, FieldType.isPrintable, Bool.and_eq_true] at htype'
      obtain ⟨hkeys, hvalues⟩ := FieldType.map_injective htype.1 htype.2 htype'.1 htype'.2 h
      exact ⟨by rw [hmap key value hfirst, hmap' key' value' hsecond], by rw [hkeys, hvalues]⟩

theorem Field.line_injective {a b : Field} (ha : a.isPrintable = true) (hb : b.isPrintable = true)
    (h : a.line = b.line) : a = b := by
  have htext : sentence a.words (ending a.number) = sentence b.words (ending b.number) := by
    rw [← Field.text_line, ← Field.text_line, h]
  obtain ⟨hwords, hnumber⟩ := sentence_inj (fun _ => Field.isWord_words ha)
    (fun _ => Field.isWord_words hb) (isWord_number a.number) (isWord_number b.number) htext
  obtain ⟨hbefore, hname⟩ := List.append_inj' hwords rfl
  obtain ⟨hlabel, htype⟩ := Field.label_type_injective ha hb hbefore
  simp only [List.cons.injEq, and_true] at hname
  have hnames := String.toList_inj.mp hname
  obtain ⟨label, type, name, number⟩ := a
  obtain ⟨label', type', name', number'⟩ := b
  cases hlabel
  cases htype
  cases hnames
  cases ending_injective hnumber
  rfl

def valueLine (value : String × Int) : Line :=
  ⟨0, s!"{value.1} = {value.2};"⟩

/-- The line that allows several names for one number. -/
def aliasLine : Line := ⟨0, "option allow_alias = true;"⟩

theorem text_valueLine (value : String × Int) :
    (valueLine value).text.toList = sentence [value.1.toList, ['=']] (ending value.2) := by
  simp [valueLine, sentence, ending, String.toList_append, toString]

private theorem text_aliasLine : aliasLine.text.toList =
    sentence ["option".toList, "allow_alias".toList, ['=']] "true;".toList := by
  decide

theorem isWord_value {value : String × Int} (h : isIdentifier value.1.toList = true)
    {word : List Char} (hword : word ∈ [value.1.toList, ['=']]) : IsWord word := by
  rw [List.mem_cons, List.mem_singleton] at hword
  rcases hword with rfl | rfl
  · exact isWord_of_isIdentifier h
  · exact isWord_equals

private theorem isWord_alias {word : List Char}
    (h : word ∈ ["option".toList, "allow_alias".toList, ['=']]) : IsWord word := by
  simp only [List.mem_cons, List.not_mem_nil, or_false] at h
  rcases h with rfl | rfl | rfl <;> exact ⟨by decide, by decide, by decide⟩

theorem valueLine_injective {a b : String × Int} (ha : isIdentifier a.1.toList = true)
    (hb : isIdentifier b.1.toList = true) (h : valueLine a = valueLine b) : a = b := by
  have htext : sentence [a.1.toList, ['=']] (ending a.2) =
      sentence [b.1.toList, ['=']] (ending b.2) := by
    rw [← text_valueLine, ← text_valueLine, h]
  obtain ⟨hwords, hnumber⟩ := sentence_inj (fun _ => isWord_value ha) (fun _ => isWord_value hb)
    (isWord_number a.2) (isWord_number b.2) htext
  simp only [List.cons.injEq, and_true] at hwords
  exact Prod.ext (String.toList_inj.mp hwords) (ending_injective hnumber)

/-- A value has too few words to allow anything. -/
theorem valueLine_ne_aliasLine {value : String × Int} (h : isIdentifier value.1.toList = true) :
    valueLine value ≠ aliasLine := by
  intro heq
  have htext := congrArg (fun l : Line => l.text.toList) heq
  simp only [text_valueLine, text_aliasLine] at htext
  obtain ⟨hwords, -⟩ := sentence_inj (fun _ => isWord_value h) (fun _ => isWord_alias)
    (isWord_number value.2) ⟨by decide, by decide, by decide⟩ htext
  cases (List.cons.inj (List.cons.inj hwords).2).2

private theorem Parameter.text_injective {a b : Parameter} (ha : isDotted a.type.toList = true)
    (hb : isDotted b.type.toList = true) (h : a.text = b.text) : a = b := by
  obtain ⟨stream, type⟩ := a
  obtain ⟨stream', type'⟩ := b
  have htext := congrArg String.toList h
  have hblank := (isWord_of_isDotted ha).noBlank
  have hblank' := (isWord_of_isDotted hb).noBlank
  cases stream <;> cases stream' <;>
    simp only [Parameter.text, String.toList_append, Bool.false_eq_true, if_true, if_false,
      List.append_cancel_left_eq] at htext
  · rw [String.toList_inj.mp htext]
  · have hmem : ' ' ∈ "".toList ++ type.toList := htext ▸ List.mem_append_left _ (by decide)
    exact absurd hmem hblank
  · have hmem : ' ' ∈ "".toList ++ type'.toList := htext ▸ List.mem_append_left _ (by decide)
    exact absurd hmem hblank'
  · rw [String.toList_inj.mp htext]

theorem Parameter.notMem_text {a : Parameter} (h : isDotted a.type.toList = true) {c : Char}
    (hc : isNameChar c = false) (hdot : c ≠ '.') (hblank : c ≠ ' ') : c ∉ a.text.toList := by
  have htype := notMem_of_isDotted h hc hdot
  obtain ⟨stream, type⟩ := a
  have hstream : c ∉ "stream ".toList := by
    intro hmem
    have checked : ("stream ".toList.all fun c => c == ' ' || isNameChar c) = true := by decide
    have hallowed := List.all_eq_true.mp checked c hmem
    rw [hc, Bool.or_false, beq_iff_eq] at hallowed
    exact hblank hallowed
  cases stream
  · simpa [Parameter.text] using htype
  · rw [Parameter.text, String.toList_append, List.mem_append, not_or]
    exact ⟨hstream, htype⟩

theorem Method.text_line (m : Method) : m.line.text.toList =
    "rpc ".toList ++ (m.name.toList ++ '(' :: (m.input.text.toList ++ ')' ::
      (" returns (".toList ++ (m.output.text.toList ++ ')' :: [';'])))) := by
  simp [Method.line, String.toList_append, toString]

theorem Method.isPrintable_iff {m : Method} : m.isPrintable = true ↔
    isIdentifier m.name.toList = true ∧ isDotted m.input.type.toList = true ∧
      isDotted m.output.type.toList = true := by
  simp [Method.isPrintable, and_assoc]

theorem Method.line_injective {a b : Method} (ha : a.isPrintable = true) (hb : b.isPrintable = true)
    (h : a.line = b.line) : a = b := by
  obtain ⟨hname, hinput, houtput⟩ := Method.isPrintable_iff.mp ha
  obtain ⟨hname', hinput', houtput'⟩ := Method.isPrintable_iff.mp hb
  have htext := congrArg (fun l : Line => l.text.toList) h
  simp only [Method.text_line, List.append_cancel_left_eq] at htext
  obtain ⟨hnames, hrest⟩ := at_mark (notMem_of_isIdentifier hname (by decide))
    (notMem_of_isIdentifier hname' (by decide)) htext
  obtain ⟨hinputs, hrest⟩ := at_mark
    (Parameter.notMem_text hinput (by decide) (by decide) (by decide))
    (Parameter.notMem_text hinput' (by decide) (by decide) (by decide)) hrest
  obtain ⟨houtputs, -⟩ := at_mark
    (Parameter.notMem_text houtput (by decide) (by decide) (by decide))
    (Parameter.notMem_text houtput' (by decide) (by decide) (by decide))
    (List.append_cancel_left hrest)
  have hin := Parameter.text_injective hinput hinput' (String.toList_inj.mp hinputs)
  have hout := Parameter.text_injective houtput houtput' (String.toList_inj.mp houtputs)
  obtain ⟨name, input, output⟩ := a
  obtain ⟨name', input', output'⟩ := b
  cases hin
  cases hout
  cases String.toList_inj.mp hnames
  rfl

end RpcGateway.Idl
