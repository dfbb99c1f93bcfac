import RpcGateway.Proofs.Idl.Lines
/-!
# Reading blocks back

A block ends at its first line that is not indented, so its head and its body are known from the lines that
it starts. Blocks of one kind in a row are told from what follows by the first word of their heads.
-/
namespace RpcGateway.Idl

open Cut (at_mark flatMap_append_inj map_injective)

private theorem Line.indent_injective {a b : Line} (h : a.indent = b.indent) : a = b := by
  obtain ⟨depth, text⟩ := a
  obtain ⟨depth', text'⟩ := b
  simp only [Line.indent, Line.mk.injEq, Nat.add_right_cancel_iff] at h
  rw [h.1, h.2]

private theorem map_indent_injective {body other : List Line}
    (h : body.map Line.indent = other.map Line.indent) : body = other :=
  map_injective (P := fun _ => True) (fun _ _ _ _ => Line.indent_injective) (fun _ _ => trivial)
    (fun _ _ => trivial) h

private theorem head_append_injective {head head' : String} (h : head ++ " \x7b" = head' ++ " \x7b") :
    head = head' := by
  have hchars := congrArg String.toList h
  rw [String.toList_append, String.toList_append] at hchars
  exact String.toList_inj.mp (List.append_cancel_right hchars)

private theorem block_append_inj {head head' : String} {body body' s t : List Line}
    (h : block head body ++ s = block head' body' ++ t) : head = head' ∧ body = body' ∧ s = t := by
  have hclose : ∀ lines : List Line, (⟨0, "\x7d"⟩ : Line) ∉ lines.map Line.indent := by
    intro lines hmem
    obtain ⟨l, -, hl⟩ := List.mem_map.mp hmem
    cases congrArg Line.depth hl
  simp only [block, List.cons_append, List.append_assoc, List.nil_append, List.cons.injEq] at h
  obtain ⟨hbody, hrest⟩ := at_mark (hclose body) (hclose body') h.2
  exact ⟨head_append_injective (congrArg Line.text h.1), map_indent_injective hbody, hrest⟩

inductive Kind where
  | enum
  | message
  | oneof
  | service
  deriving DecidableEq

def Kind.word : Kind → String
  | .enum => "enum "
  | .message => "message "
  | .oneof => "oneof "
  | .service => "service "

private theorem Kind.word_append_inj {k k' : Kind} {name name' : String}
    (h : k.word ++ name = k'.word ++ name') : k = k' ∧ name = name' := by
  have hchars := congrArg String.toList h
  rw [String.toList_append, String.toList_append] at hchars
  have hsame : k = k' := by
    have hfirst := congrArg List.head? hchars
    cases k <;> cases k' <;> first | rfl | simp [Kind.word] at hfirst
  subst hsame
  exact ⟨rfl, String.toList_inj.mp (List.append_cancel_left hchars)⟩

/-- Lines start with a block of a kind, after some other lines. -/
def Opens (lead : List Line) (k : Kind) (lines : List Line) : Prop :=
  ∃ name rest, lines = lead ++ ⟨0, k.word ++ name ++ " \x7b"⟩ :: rest

theorem opens_block (lead : List Line) (k : Kind) (name : String) (body rest : List Line) :
    Opens lead k (lead ++ block (k.word ++ name) body ++ rest) :=
  ⟨name, body.map Line.indent ++ [⟨0, "\x7d"⟩] ++ rest, by simp [block]⟩

private theorem Opens.kind_eq {lead lines : List Line} {k k' : Kind} (h : Opens lead k lines)
    (h' : Opens lead k' lines) : k = k' := by
  obtain ⟨name, rest, rfl⟩ := h
  obtain ⟨name', rest', heq⟩ := h'
  have hlines := (List.cons.inj (List.append_cancel_left heq)).1
  exact (Kind.word_append_inj (head_append_injective (congrArg Line.text hlines))).1

theorem not_opens_flatMap {α : Type} {lead s : List Line} {k k' : Kind} {write : α → List Line}
    (hopens : ∀ x u, Opens lead k' (write x ++ u)) (hne : k' ≠ k) (hs : ¬ Opens lead k s)
    (xs : List α) : ¬ Opens lead k (xs.flatMap write ++ s) := by
  cases xs with
  | nil => exact hs
  | cons x xs =>
    intro h
    rw [List.flatMap_cons, List.append_assoc] at h
    exact hne ((hopens x _).kind_eq h)

/-- Blocks of one kind in a row are told from what follows if that starts with no block of the kind. -/
theorem section_inj {α : Type} {lead s t : List Line} (k : Kind) {write : α → List Line}
    {xs ys : List α} (hopens : ∀ x u, Opens lead k (write x ++ u))
    (h : ∀ x ∈ xs, ∀ y ∈ ys, ∀ u v, write x ++ u = write y ++ v → x = y ∧ u = v)
    (hs : ¬ Opens lead k s) (ht : ¬ Opens lead k t)
    (heq : xs.flatMap write ++ s = ys.flatMap write ++ t) : xs = ys ∧ s = t :=
  flatMap_append_inj (¬ Opens lead k ·) h (fun x _ u hn => hn (hopens x u))
    (fun y _ u hn => hn (hopens y u)) hs ht heq

def Enumeration.body (e : Enumeration) : List Line :=
  (if e.allowAlias then [aliasLine] else []) ++ e.values.map valueLine

theorem Enumeration.lines_eq (e : Enumeration) :
    e.lines = block (Kind.enum.word ++ e.name) e.body := rfl

theorem Oneof.lines_eq (o : Oneof) :
    o.lines = block (Kind.oneof.word ++ o.name) (o.fields.map Field.line) := rfl

theorem Service.lines_eq (s : Service) :
    s.lines = block (Kind.service.word ++ s.name) (s.methods.map Method.line) := rfl

def Message.body (m : Message) : List Line :=
  m.enums.flatMap Enumeration.lines ++ (m.messages.flatMap Message.lines ++
    (m.oneofs.flatMap Oneof.lines ++ m.fields.map Field.line))

theorem linesOf_eq_flatMap (ms : List Message) : linesOf ms = ms.flatMap Message.lines := by
  induction ms with
  | nil => rfl
  | cons m rest ih => rw [linesOf, List.flatMap_cons, ih]

theorem Message.lines_eq (m : Message) :
    m.lines = block (Kind.message.word ++ m.name) m.body := by
  obtain ⟨name, enums, messages, oneofs, fields⟩ := m
  rw [Message.lines, linesOf_eq_flatMap, List.append_assoc, List.append_assoc]
  rfl

theorem Enumeration.isPrintable_iff {e : Enumeration} : e.isPrintable = true ↔
    isIdentifier e.name.toList = true ∧ ∀ v ∈ e.values, isIdentifier v.1.toList = true := by
  simp [Enumeration.isPrintable]

theorem Oneof.isPrintable_iff {o : Oneof} : o.isPrintable = true ↔
    isIdentifier o.name.toList = true ∧ ∀ f ∈ o.fields, f.isPrintable = true := by
  simp [Oneof.isPrintable]

theorem Service.isPrintable_iff {s : Service} : s.isPrintable = true ↔
    isIdentifier s.name.toList = true ∧ ∀ m ∈ s.methods, m.isPrintable = true := by
  simp [Service.isPrintable]

theorem Message.isPrintable_iff {m : Message} : m.isPrintable = true ↔
    isIdentifier m.name.toList = true ∧ (∀ e ∈ m.enums, e.isPrintable = true) ∧
      (∀ n ∈ m.messages, n.isPrintable = true) ∧ (∀ o ∈ m.oneofs, o.isPrintable = true) ∧
      ∀ f ∈ m.fields, f.isPrintable = true := by
  obtain ⟨name, enums, messages, oneofs, fields⟩ := m
  simp [Message.isPrintable, arePrintable_eq_all, and_assoc]

private theorem values_injective {xs ys : List (String × Int)}
    (hxs : ∀ v ∈ xs, isIdentifier v.1.toList = true)
    (hys : ∀ v ∈ ys, isIdentifier v.1.toList = true) (h : xs.map valueLine = ys.map valueLine) :
    xs = ys :=
  map_injective (fun _ _ => valueLine_injective) hxs hys h

private theorem fields_injective {xs ys : List Field} (hxs : ∀ f ∈ xs, f.isPrintable = true)
    (hys : ∀ f ∈ ys, f.isPrintable = true) (h : xs.map Field.line = ys.map Field.line) : xs = ys :=
  map_injective (fun _ _ => Field.line_injective) hxs hys h

private theorem aliasLine_notMem {values : List (String × Int)}
    (h : ∀ v ∈ values, isIdentifier v.1.toList = true) : aliasLine ∉ values.map valueLine := by
  intro hmem
  obtain ⟨value, hvalue, heq⟩ := List.mem_map.mp hmem
  exact valueLine_ne_aliasLine (h value hvalue) heq

private theorem Enumeration.injective {a b : Enumeration} (ha : a.isPrintable = true)
    (hb : b.isPrintable = true) (hname : a.name = b.name) (hbody : a.body = b.body) : a = b := by
  obtain ⟨name, allows, values⟩ := a
  obtain ⟨name', allows', values'⟩ := b
  have hvalues := (Enumeration.isPrintable_iff.mp ha).2
  have hvalues' := (Enumeration.isPrintable_iff.mp hb).2
  cases hname
  cases allows <;> cases allows' <;>
    simp only [Enumeration.body, Bool.false_eq_true, if_true, if_false, List.nil_append,
      List.append_cancel_left_eq] at hbody
  · have hsame : values = values' := values_injective hvalues hvalues' hbody
    rw [hsame]
  · exact absurd (hbody ▸ List.mem_append_left _ (by decide)) (aliasLine_notMem hvalues)
  · exact absurd (hbody ▸ List.mem_append_left _ (by decide)) (aliasLine_notMem hvalues')
  · have hsame : values = values' := values_injective hvalues hvalues' hbody
    rw [hsame]

private theorem Oneof.injective {a b : Oneof} (ha : a.isPrintable = true) (hb : b.isPrintable = true)
    (hname : a.name = b.name) (hbody : a.fields.map Field.line = b.fields.map Field.line) :
    a = b := by
  obtain ⟨name, fields⟩ := a
  obtain ⟨name', fields'⟩ := b
  cases hname
  cases fields_injective (Oneof.isPrintable_iff.mp ha).2 (Oneof.isPrintable_iff.mp hb).2 hbody
  rfl

private theorem Service.injective {a b : Service} (ha : a.isPrintable = true) (hb : b.isPrintable = true)
    (hname : a.name = b.name) (hbody : a.methods.map Method.line = b.methods.map Method.line) :
    a = b := by
  obtain ⟨name, methods⟩ := a
  obtain ⟨name', methods'⟩ := b
  cases hname
  cases map_injective (fun _ _ => Method.line_injective) (Service.isPrintable_iff.mp ha).2
    (Service.isPrintable_iff.mp hb).2 hbody
  rfl

private theorem Field.not_opens {fields : List Field} {k : Kind} :
    ¬ Opens [] k (fields.map Field.line) := by
  rintro ⟨name, rest, h⟩
  cases fields with
  | nil => cases h
  | cons f fields =>
    have hline := (List.cons.inj h).1
    have htext := congrArg (fun l : Line => l.text.toList.getLast?) hline
    simp only [Field.text_line] at htext
    simp [sentence, ending, String.toList_append] at htext

private theorem lines_append_inj {α : Type} {k : Kind} {name : α → String} {body lines : α → List Line}
    (hlines : ∀ x, lines x = block (k.word ++ name x) (body x)) {a b : α} {s t : List Line}
    (hinj : name a = name b → body a = body b → a = b) (h : lines a ++ s = lines b ++ t) :
    a = b ∧ s = t := by
  rw [hlines, hlines] at h
  obtain ⟨hhead, hbody, hrest⟩ := block_append_inj h
  have hname : name a = name b := (Kind.word_append_inj hhead).2
  exact ⟨hinj hname hbody, hrest⟩

theorem Enumeration.lines_append_inj {a b : Enumeration} {s t : List Line}
    (ha : a.isPrintable = true) (hb : b.isPrintable = true) (h : a.lines ++ s = b.lines ++ t) :
    a = b ∧ s = t :=
  Idl.lines_append_inj Enumeration.lines_eq (Enumeration.injective ha hb) h

private theorem Oneof.lines_append_inj {a b : Oneof} {s t : List Line} (ha : a.isPrintable = true)
    (hb : b.isPrintable = true) (h : a.lines ++ s = b.lines ++ t) : a = b ∧ s = t :=
  Idl.lines_append_inj Oneof.lines_eq (Oneof.injective ha hb) h

theorem Service.lines_append_inj {a b : Service} {s t : List Line} (ha : a.isPrintable = true)
    (hb : b.isPrintable = true) (h : a.lines ++ s = b.lines ++ t) : a = b ∧ s = t :=
  Idl.lines_append_inj Service.lines_eq (Service.injective ha hb) h

theorem Enumeration.opens_lines (e : Enumeration) (u : List Line) : Opens [] .enum (e.lines ++ u) :=
  opens_block [] .enum e.name e.body u

private theorem Oneof.opens_lines (o : Oneof) (u : List Line) : Opens [] .oneof (o.lines ++ u) :=
  opens_block [] .oneof o.name _ u

theorem Message.opens_lines (m : Message) (u : List Line) : Opens [] .message (m.lines ++ u) := by
  rw [Message.lines_eq]
  exact opens_block [] .message m.name m.body u

private theorem Message.body_injective {a b : Message} (ha : a.isPrintable = true) (hb : b.isPrintable = true)
    (hnested : ∀ x ∈ a.messages, ∀ y ∈ b.messages, ∀ u v,
      x.lines ++ u = y.lines ++ v → x = y ∧ u = v)
    (hbody : a.body = b.body) : a.enums = b.enums ∧ a.messages = b.messages ∧
      a.oneofs = b.oneofs ∧ a.fields = b.fields := by
  obtain ⟨-, henums, -, honeofs, hfields⟩ := Message.isPrintable_iff.mp ha
  obtain ⟨-, henums', -, honeofs', hfields'⟩ := Message.isPrintable_iff.mp hb
  have hends : ∀ (m : Message) (k : Kind), k ≠ .oneof →
      ¬ Opens [] k (m.oneofs.flatMap Oneof.lines ++ m.fields.map Field.line) := by
    intro m k hk
    exact not_opens_flatMap Oneof.opens_lines hk.symm Field.not_opens m.oneofs
  have hends' : ∀ m : Message, ¬ Opens [] .enum (m.messages.flatMap Message.lines ++
      (m.oneofs.flatMap Oneof.lines ++ m.fields.map Field.line)) := by
    intro m
    exact not_opens_flatMap Message.opens_lines (by decide) (hends m .enum (by decide)) m.messages
  obtain ⟨hsame, hrest⟩ := section_inj .enum Enumeration.opens_lines
    (fun x hx y hy _ _ => Enumeration.lines_append_inj (henums x hx) (henums' y hy))
    (hends' a) (hends' b) hbody
  obtain ⟨hsame', hrest'⟩ := section_inj .message Message.opens_lines hnested
    (hends a .message (by decide)) (hends b .message (by decide)) hrest
  obtain ⟨hsame'', hrest''⟩ := section_inj .oneof Oneof.opens_lines
    (fun x hx y hy _ _ => Oneof.lines_append_inj (honeofs x hx) (honeofs' y hy))
    Field.not_opens Field.not_opens hrest'
  exact ⟨hsame, hsame', hsame'', fields_injective hfields hfields' hrest''⟩

private theorem Message.injective {a b : Message} (hname : a.name = b.name) (henums : a.enums = b.enums)
    (hmessages : a.messages = b.messages) (honeofs : a.oneofs = b.oneofs)
    (hfields : a.fields = b.fields) : a = b := by
  obtain ⟨name, enums, messages, oneofs, fields⟩ := a
  obtain ⟨name', enums', messages', oneofs', fields'⟩ := b
  cases hname
  cases henums
  cases hmessages
  cases honeofs
  cases hfields
  rfl

/-- The lines that start with a message tell the message and what follows it. -/
theorem Message.lines_append_inj {a b : Message} {s t : List Line} (ha : a.isPrintable = true)
    (hb : b.isPrintable = true) (h : a.lines ++ s = b.lines ++ t) : a = b ∧ s = t := by
  induction a using Message.induction generalizing b s t with
  | step a ih =>
    have hprintable := (Message.isPrintable_iff.mp ha).2.2.1
    have hprintable' := (Message.isPrintable_iff.mp hb).2.2.1
    refine Idl.lines_append_inj Message.lines_eq ?_ h
    intro hname hbody
    obtain ⟨henums, hmessages, honeofs, hfields⟩ := Message.body_injective ha hb
      (fun x hx y hy _ _ => ih x hx (hprintable x hx) (hprintable' y hy)) hbody
    exact Message.injective hname henums hmessages honeofs hfields

end RpcGateway.Idl
