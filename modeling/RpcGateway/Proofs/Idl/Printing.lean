import RpcGateway.Proofs.Idl.Blocks
/-!
# Reading printed lines back

A line is known from what is printed for it, and from where it ends, if it neither starts with a blank nor
holds a line break. All lines of printable declarations are like this.
-/
namespace RpcGateway.Idl

open Cut (CutsOff at_mark)

private theorem replicate_append_inj {m n : Nat} {c : Char} {xs ys : List Char} (hx : xs.head? ≠ some c)
    (hy : ys.head? ≠ some c) (h : List.replicate m c ++ xs = List.replicate n c ++ ys) :
    m = n ∧ xs = ys := by
  induction m generalizing n with
  | zero =>
    cases n with
    | zero => exact ⟨rfl, h⟩
    | succ n =>
      rw [List.replicate_zero, List.nil_append, List.replicate_succ, List.cons_append] at h
      exact absurd (h ▸ rfl) hx
  | succ m ih =>
    cases n with
    | zero =>
      rw [List.replicate_zero, List.nil_append, List.replicate_succ, List.cons_append] at h
      exact absurd (h ▸ rfl) hy
    | succ n =>
      rw [List.replicate_succ, List.replicate_succ, List.cons_append, List.cons_append] at h
      obtain ⟨rfl, hrest⟩ := ih (List.cons.inj h).2
      exact ⟨rfl, hrest⟩

theorem cutsOff_print : CutsOff Line.IsClean Line.print := by
  intro a b s t ha hb h
  have hbreak : ∀ l : Line, l.IsClean → '\n' ∉ List.replicate (2 * l.depth) ' ' ++ l.text.toList := by
    intro l hl hmem
    rcases List.mem_append.mp hmem with hin | hin
    · exact absurd (List.eq_of_mem_replicate hin) (by decide)
    · exact hl.noBreak hin
  rw [Line.print, Line.print, List.append_assoc _ ['\n'], List.append_assoc _ ['\n']] at h
  obtain ⟨htext, hrest⟩ := at_mark (hbreak a ha) (hbreak b hb) h
  obtain ⟨hdepth, hchars⟩ := replicate_append_inj ha.noBlank hb.noBlank htext
  obtain ⟨depth, text⟩ := a
  obtain ⟨depth', text'⟩ := b
  have hsame : depth = depth' := Nat.eq_of_mul_eq_mul_left (by decide) hdepth
  cases hsame
  cases String.toList_inj.mp hchars
  exact ⟨rfl, hrest⟩

private theorem isClean_of_sentence {l : Line} {words : List (List Char)} {last : List Char}
    (htext : l.text.toList = sentence words last) (hne : words ≠ [])
    (hwords : ∀ w ∈ words, IsWord w) (hlast : IsWord last) : l.IsClean := by
  obtain ⟨first, rest, rfl⟩ := List.exists_cons_of_ne_nil hne
  have hfirst := hwords first List.mem_cons_self
  constructor
  · rw [htext, sentence, List.mem_append, not_or]
    refine ⟨?_, hlast.noBreak⟩
    intro hmem
    obtain ⟨w, hw, hin⟩ := List.mem_flatMap.mp hmem
    rw [List.mem_append, List.mem_singleton] at hin
    rcases hin with hin | hin
    · exact (hwords w hw).noBreak hin
    · cases hin
  · obtain ⟨c, cs, hcs⟩ := List.exists_cons_of_ne_nil hfirst.ne_nil
    have hblank : c ≠ ' ' := by
      rintro rfl
      exact hfirst.noBlank (hcs ▸ List.mem_cons_self)
    rw [htext, sentence, List.flatMap_cons, hcs]
    simpa using hblank

theorem Line.IsClean.indent {l : Line} (h : l.IsClean) : l.indent.IsClean := ⟨h.noBreak, h.noBlank⟩

private theorem isClean_block {k : Kind} {name : String} {body : List Line}
    (hname : isIdentifier name.toList = true) (hbody : ∀ l ∈ body, l.IsClean) :
    ∀ l ∈ block (k.word ++ name) body, l.IsClean := by
  have hbreak := (isWord_of_isIdentifier hname).noBreak
  intro l hl
  rw [block, List.mem_append, List.mem_cons, List.mem_map, List.mem_singleton] at hl
  rcases hl with (rfl | ⟨inner, hinner, rfl⟩) | rfl
  · constructor
    · cases k <;> simp [String.toList_append, Kind.word, hbreak]
    · cases k <;> simp [String.toList_append, Kind.word]
  · exact (hbody inner hinner).indent
  · exact ⟨by decide, by decide⟩

private theorem Field.isClean_line {f : Field} (h : f.isPrintable = true) : f.line.IsClean := by
  refine isClean_of_sentence f.text_line ?_ (fun _ => Field.isWord_words h) (isWord_number f.number)
  simp [Field.words]

private theorem isClean_valueLine {value : String × Int} (h : isIdentifier value.1.toList = true) :
    (valueLine value).IsClean :=
  isClean_of_sentence (text_valueLine value) (List.cons_ne_nil _ _) (fun _ => isWord_value h)
    (isWord_number value.2)

private theorem Method.isClean_line {m : Method} (h : m.isPrintable = true) : m.line.IsClean := by
  obtain ⟨hname, hinput, houtput⟩ := Method.isPrintable_iff.mp h
  have hname' := (isWord_of_isIdentifier hname).noBreak
  have hinput' : '\n' ∉ m.input.text.toList :=
    Parameter.notMem_text hinput (by decide) (by decide) (by decide)
  have houtput' : '\n' ∉ m.output.text.toList :=
    Parameter.notMem_text houtput (by decide) (by decide) (by decide)
  constructor
  · rw [Method.text_line]
    simp [hname', hinput', houtput']
  · rw [Method.text_line]
    simp

theorem Enumeration.isClean_lines {e : Enumeration} (h : e.isPrintable = true) :
    ∀ l ∈ e.lines, l.IsClean := by
  obtain ⟨hname, hvalues⟩ := Enumeration.isPrintable_iff.mp h
  rw [Enumeration.lines_eq]
  apply isClean_block hname
  intro l hl
  rw [Enumeration.body, List.mem_append] at hl
  rcases hl with hl | hl
  · have halias : l = aliasLine := by
      cases halias : e.allowAlias <;> simp [halias] at hl
      exact hl
    rw [halias]
    exact ⟨by decide, by decide⟩
  · obtain ⟨value, hvalue, rfl⟩ := List.mem_map.mp hl
    exact isClean_valueLine (hvalues value hvalue)

private theorem isClean_fields {fields : List Field} (h : ∀ f ∈ fields, f.isPrintable = true) :
    ∀ l ∈ fields.map Field.line, l.IsClean := by
  intro l hl
  obtain ⟨f, hf, rfl⟩ := List.mem_map.mp hl
  exact Field.isClean_line (h f hf)

private theorem Oneof.isClean_lines {o : Oneof} (h : o.isPrintable = true) : ∀ l ∈ o.lines, l.IsClean := by
  obtain ⟨hname, hfields⟩ := Oneof.isPrintable_iff.mp h
  rw [Oneof.lines_eq]
  exact isClean_block hname (isClean_fields hfields)

theorem Service.isClean_lines {s : Service} (h : s.isPrintable = true) :
    ∀ l ∈ s.lines, l.IsClean := by
  obtain ⟨hname, hmethods⟩ := Service.isPrintable_iff.mp h
  rw [Service.lines_eq]
  apply isClean_block hname
  intro l hl
  obtain ⟨m, hm, rfl⟩ := List.mem_map.mp hl
  exact Method.isClean_line (hmethods m hm)

theorem Message.isClean_lines {m : Message} (h : m.isPrintable = true) :
    ∀ l ∈ m.lines, l.IsClean := by
  induction m using Message.induction with
  | step m ih =>
    obtain ⟨hname, henums, hmessages, honeofs, hfields⟩ := Message.isPrintable_iff.mp h
    rw [Message.lines_eq]
    apply isClean_block hname
    intro l hl
    simp only [Message.body, List.mem_append, List.mem_flatMap] at hl
    rcases hl with ⟨e, he, hin⟩ | ⟨n, hn, hin⟩ | ⟨o, ho, hin⟩ | hin
    · exact Enumeration.isClean_lines (henums e he) l hin
    · exact ih n hn (hmessages n hn) l hin
    · exact Oneof.isClean_lines (honeofs o ho) l hin
    · exact isClean_fields hfields l hin

theorem isClean_apart {lines : List Line} (h : ∀ l ∈ lines, l.IsClean) :
    ∀ l ∈ apart lines, l.IsClean := by
  intro l hl
  cases lines with
  | nil => cases hl
  | cons first rest =>
    rcases List.mem_cons.mp hl with rfl | hin
    · exact ⟨by decide, by decide⟩
    · exact h l hin

end RpcGateway.Idl
