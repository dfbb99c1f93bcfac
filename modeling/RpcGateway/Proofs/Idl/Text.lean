import RpcGateway.Proofs.Idl.Printing
/-!
# Reading files back

The sections of a file are told apart by the first letter after the empty line before them. Only literals
may hold line breaks; they end at their first quote that is not escaped. So a file is known from its text.
-/
namespace RpcGateway.Idl

open Cut (CutsOff at_mark)

private theorem apart_of_opens {k : Kind} {lines : List Line} (h : Opens [] k (lines ++ [])) :
    apart lines = ⟨0, ""⟩ :: lines := by
  obtain ⟨name, rest, hlines⟩ := h
  rw [List.append_nil] at hlines
  rw [hlines]
  rfl

def File.body (f : File) : List Line :=
  f.enums.flatMap (apart ·.lines) ++ (f.messages.flatMap (apart ·.lines) ++
    f.services.flatMap (apart ·.lines))

private theorem Service.opens_lines (s : Service) (u : List Line) : Opens [] .service (s.lines ++ u) :=
  opens_block [] .service s.name _ u

private theorem opens_apart {lines : List Line} {k : Kind} (h : ∀ u, Opens [] k (lines ++ u))
    (u : List Line) : Opens [⟨0, ""⟩] k (apart lines ++ u) := by
  rw [apart_of_opens (h [])]
  obtain ⟨name, rest, hlines⟩ := h u
  exact ⟨name, rest, by rw [List.cons_append, hlines]; rfl⟩

private theorem apart_append_inj {a b s t : List Line} {k : Kind} (ha : Opens [] k (a ++ []))
    (hb : Opens [] k (b ++ [])) (h : apart a ++ s = apart b ++ t) : a ++ s = b ++ t := by
  rw [apart_of_opens ha, apart_of_opens hb] at h
  exact (List.cons.inj h).2

theorem File.isPrintable_iff {f : File} : f.isPrintable = true ↔
    (∀ p ∈ f.package, isDotted p.toList = true) ∧ (∀ e ∈ f.enums, e.isPrintable = true) ∧
      (∀ m ∈ f.messages, m.isPrintable = true) ∧ ∀ s ∈ f.services, s.isPrintable = true := by
  cases hpackage : f.package <;> simp [File.isPrintable, hpackage, and_assoc]

private theorem File.body_injective {a b : File} (ha : a.isPrintable = true) (hb : b.isPrintable = true)
    (h : a.body = b.body) :
    a.enums = b.enums ∧ a.messages = b.messages ∧ a.services = b.services := by
  obtain ⟨-, henums, hmessages, hservices⟩ := File.isPrintable_iff.mp ha
  obtain ⟨-, henums', hmessages', hservices'⟩ := File.isPrintable_iff.mp hb
  have hservice : ∀ (x : Service) u, Opens [⟨0, ""⟩] .service (apart x.lines ++ u) :=
    fun x => opens_apart x.opens_lines
  have hmessage : ∀ (x : Message) u, Opens [⟨0, ""⟩] .message (apart x.lines ++ u) :=
    fun x => opens_apart x.opens_lines
  have henum : ∀ (x : Enumeration) u, Opens [⟨0, ""⟩] .enum (apart x.lines ++ u) :=
    fun x => opens_apart x.opens_lines
  have hnil : ∀ k, ¬ Opens [⟨0, ""⟩] k [] := by
    rintro k ⟨name, rest, hlines⟩
    cases hlines
  have hends : ∀ (f : File) (k : Kind), k ≠ .service →
      ¬ Opens [⟨0, ""⟩] k (f.services.flatMap (apart ·.lines) ++ []) := by
    intro f k hk
    exact not_opens_flatMap hservice hk.symm (hnil k) f.services
  have hends' : ∀ f : File, ¬ Opens [⟨0, ""⟩] .enum (f.messages.flatMap (apart ·.lines) ++
      (f.services.flatMap (apart ·.lines) ++ [])) := by
    intro f
    exact not_opens_flatMap hmessage (by decide) (hends f .enum (by decide)) f.messages
  rw [File.body, File.body, ← List.append_nil (a.services.flatMap _),
    ← List.append_nil (b.services.flatMap _)] at h
  obtain ⟨hsame, hrest⟩ := section_inj .enum henum
    (fun x hx y hy _ _ heq => Enumeration.lines_append_inj (henums x hx) (henums' y hy)
      (apart_append_inj (x.opens_lines []) (y.opens_lines []) heq)) (hends' a) (hends' b) h
  obtain ⟨hsame', hrest'⟩ := section_inj .message hmessage
    (fun x hx y hy _ _ heq => Message.lines_append_inj (hmessages x hx) (hmessages' y hy)
      (apart_append_inj (x.opens_lines []) (y.opens_lines []) heq))
    (hends a .message (by decide)) (hends b .message (by decide)) hrest
  obtain ⟨hsame'', -⟩ := section_inj .service hservice
    (fun x hx y hy _ _ heq => Service.lines_append_inj (hservices x hx) (hservices' y hy)
      (apart_append_inj (x.opens_lines []) (y.opens_lines []) heq))
    (hnil .service) (hnil .service) hrest'
  exact ⟨hsame, hsame', hsame''⟩

private theorem File.isClean_body {f : File} (h : f.isPrintable = true) : ∀ l ∈ f.body, l.IsClean := by
  obtain ⟨-, henums, hmessages, hservices⟩ := File.isPrintable_iff.mp h
  intro l hl
  simp only [File.body, List.mem_append, List.mem_flatMap] at hl
  rcases hl with ⟨e, he, hin⟩ | ⟨m, hm, hin⟩ | ⟨s, hs, hin⟩
  · exact isClean_apart (Enumeration.isClean_lines (henums e he)) l hin
  · exact isClean_apart (Message.isClean_lines (hmessages m hm)) l hin
  · exact isClean_apart (Service.isClean_lines (hservices s hs)) l hin

private theorem File.body_text_injective {a b : File} (ha : a.isPrintable = true) (hb : b.isPrintable = true)
    (h : a.body.flatMap Line.print = b.body.flatMap Line.print) : a.body = b.body := by
  refine cutsOff_print.flatMap_injective ?_ (File.isClean_body ha) (File.isClean_body hb) h
  intro l _
  simp [Line.print]

/-- What follows a section is nothing, or an empty line and one of some letters. -/
def AfterBreak (letters : List Char) (cs : List Char) : Prop :=
  cs = [] ∨ ∃ c ∈ letters, ∃ rest, cs = '\n' :: c :: rest

private theorem AfterBreak.head_ne {letters cs : List Char} (h : AfterBreak letters cs) {c : Char}
    (hc : c ≠ '\n') : cs.head? ≠ some c := by
  rcases h with rfl | ⟨letter, -, rest, rfl⟩
  · simp
  · simpa using hc.symm

private theorem AfterBreak.not_cons {letters : List Char} {c : Char} (hc : c ∉ letters) (rest : List Char) :
    ¬ AfterBreak letters ('\n' :: c :: rest) := by
  rintro (h | ⟨letter, hletter, more, h⟩)
  · cases h
  · cases h
    exact hc hletter

private theorem AfterBreak.append {letters lines cs : List Char} {c : Char} (h : AfterBreak letters cs)
    (hlines : lines = [] ∨ ∃ rest, lines = '\n' :: c :: rest) :
    AfterBreak (c :: letters) (lines ++ cs) := by
  rcases hlines with rfl | ⟨rest, rfl⟩
  · rcases h with rfl | ⟨letter, hletter, rest, rfl⟩
    · exact Or.inl rfl
    · exact Or.inr ⟨letter, List.mem_cons_of_mem c hletter, rest, rfl⟩
  · exact Or.inr ⟨c, List.mem_cons_self, rest ++ cs, rfl⟩

theorem escape_cons (c : Char) (cs : List Char) :
    escape (c :: cs) = (if c = '"' ∨ c = '\\' then ['\\', c] else [c]) ++ escape cs := by
  rw [escape, List.flatMap_cons]
  rfl

private theorem escape_append_inj {cs ds s t : List Char}
    (h : escape cs ++ '"' :: s = escape ds ++ '"' :: t) : cs = ds ∧ s = t := by
  induction cs generalizing ds with
  | nil =>
    cases ds with
    | nil => exact ⟨rfl, (List.cons.inj h).2⟩
    | cons d ds =>
      rw [escape_cons] at h
      split at h
      · exact absurd (List.cons.inj h).1 (by decide)
      · rename_i hd
        exact absurd (Or.inl (List.cons.inj h).1.symm) hd
  | cons c cs ih =>
    cases ds with
    | nil =>
      rw [escape_cons] at h
      split at h
      · exact absurd (List.cons.inj h).1 (by decide)
      · rename_i hc
        exact absurd (Or.inl (List.cons.inj h).1) hc
    | cons d ds =>
      rw [escape_cons, escape_cons] at h
      split at h <;> split at h
      · obtain ⟨rfl, hrest⟩ := List.cons.inj (List.cons.inj h).2
        obtain ⟨rfl, hend⟩ := ih hrest
        exact ⟨rfl, hend⟩
      · rename_i hd
        exact absurd (Or.inr (List.cons.inj h).1.symm) hd
      · rename_i hc _
        exact absurd (Or.inr (List.cons.inj h).1) hc
      · obtain ⟨rfl, hrest⟩ := List.cons.inj h
        obtain ⟨rfl, hend⟩ := ih hrest
        exact ⟨rfl, hend⟩

/-- The text of the line of a package, after an empty one. -/
def packageText (package : String) : List Char :=
  "\npackage ".toList ++ (package.toList ++ ';' :: ['\n'])

/-- The text of the line of an option, after an empty one. -/
def goPackageText (path : String) : List Char :=
  "\noption go_package = \"".toList ++ (escape path.toList ++ '"' :: [';', '\n'])

def importText (i : Import) : List Char :=
  "import ".toList ++ (i.visibility.text.toList ++ '"' :: (escape i.path.toList ++ '"' :: [';', '\n']))

theorem packageText_eq (package : String) : packageText package =
    "\npackage ".toList ++ (package.toList ++ ';' :: ['\n']) := rfl

theorem goPackageText_eq (path : String) : goPackageText path =
    "\noption go_package = \"".toList ++ (escape path.toList ++ '"' :: [';', '\n']) := rfl

theorem importText_eq (i : Import) : importText i =
    "import ".toList ++
      (i.visibility.text.toList ++ '"' :: (escape i.path.toList ++ '"' :: [';', '\n'])) := rfl

/-- The text of the lines of imports, after an empty one. -/
def importsText (imports : List Import) : List Char :=
  if imports.isEmpty then [] else '\n' :: imports.flatMap importText

private theorem marked_append_inj {lead last xs ys s t : List Char} {mark : Char} (hx : mark ∉ xs)
    (hy : mark ∉ ys) (h : lead ++ (xs ++ mark :: last) ++ s = lead ++ (ys ++ mark :: last) ++ t) :
    xs = ys ∧ s = t := by
  simp only [List.append_assoc, List.cons_append, List.append_cancel_left_eq] at h
  obtain ⟨hsame, hrest⟩ := at_mark hx hy h
  exact ⟨hsame, List.append_cancel_left hrest⟩

private theorem quoted_append_inj {lead last xs ys s t : List Char}
    (h : lead ++ (escape xs ++ '"' :: last) ++ s = lead ++ (escape ys ++ '"' :: last) ++ t) :
    xs = ys ∧ s = t := by
  simp only [List.append_assoc, List.cons_append, List.append_cancel_left_eq] at h
  obtain ⟨hsame, hrest⟩ := escape_append_inj h
  exact ⟨hsame, List.append_cancel_left hrest⟩

private theorem cutsOff_packageText : CutsOff (fun p => isDotted p.toList = true) packageText := by
  intro a b s t ha hb h
  obtain ⟨hpackage, hend⟩ := marked_append_inj (notMem_of_isDotted ha (by decide) (by decide))
    (notMem_of_isDotted hb (by decide) (by decide)) h
  exact ⟨String.toList_inj.mp hpackage, hend⟩

private theorem cutsOff_goPackageText : CutsOff (fun _ => True) goPackageText := by
  intro a b s t _ _ h
  obtain ⟨hpath, hend⟩ := quoted_append_inj h
  exact ⟨String.toList_inj.mp hpath, hend⟩

private theorem visibility_append_inj {a b : Visibility} {s t : List Char}
    (h : a.text.toList ++ '"' :: s = b.text.toList ++ '"' :: t) : a = b ∧ s = t := by
  cases a <;> cases b <;> simp [Visibility.text] at h ⊢ <;> exact h

private theorem import_append_inj {lead last s t : List Char} {a b : Import}
    (h : lead ++ (a.visibility.text.toList ++ '"' :: (escape a.path.toList ++ '"' :: last)) ++ s =
      lead ++ (b.visibility.text.toList ++ '"' :: (escape b.path.toList ++ '"' :: last)) ++ t) :
    a = b ∧ s = t := by
  simp only [List.append_assoc, List.cons_append, List.append_cancel_left_eq] at h
  obtain ⟨hvisibility, hrest⟩ := visibility_append_inj h
  obtain ⟨hpath, hend⟩ := escape_append_inj hrest
  obtain ⟨visibility, path⟩ := a
  obtain ⟨visibility', path'⟩ := b
  cases hvisibility
  cases String.toList_inj.mp hpath
  exact ⟨rfl, List.append_cancel_left hend⟩

private theorem cutsOff_importText : CutsOff (fun _ => True) importText := by
  intro a b s t _ _ h
  exact import_append_inj h

private theorem print_package (package : Option String) :
    (apart (package.toList.map fun package => ⟨0, s!"package {package};"⟩)).flatMap Line.print =
      package.toList.flatMap packageText := by
  cases package with
  | none => rfl
  | some package => simp [apart, Line.print, packageText_eq, String.toList_append, toString]

private theorem print_goPackage (path : Option String) :
    (apart (path.toList.map fun path => ⟨0, s!"option go_package = {literal path};"⟩)).flatMap
      Line.print = path.toList.flatMap goPackageText := by
  cases path with
  | none => rfl
  | some path =>
    simp [apart, Line.print, goPackageText_eq, literal, String.toList_append, toString]

private theorem print_import (i : Import) : i.line.print = importText i := by
  simp [Import.line, Line.print, importText_eq, literal, String.toList_append, toString]

private theorem print_imports (imports : List Import) :
    (apart (imports.map Import.line)).flatMap Line.print = importsText imports := by
  cases imports with
  | nil => rfl
  | cons first rest =>
    simp only [apart, importsText, List.map_cons, List.isEmpty_cons, Bool.false_eq_true, if_false,
      List.flatMap_cons, List.flatMap_map, print_import]
    rfl

private theorem File.toList_text (f : File) : f.text.toList = f.dialect.line.print ++
    (f.package.toList.flatMap packageText ++ (importsText f.imports ++
      (f.goPackage.toList.flatMap goPackageText ++ f.body.flatMap Line.print))) := by
  rw [File.text, String.toList_ofList, ← print_package, ← print_imports, ← print_goPackage]
  simp only [File.lines, File.body, List.flatMap_append, List.flatMap_cons, List.append_assoc,
    List.cons_append]

private theorem dialect_append_inj {a b : Dialect} {s t : List Char}
    (h : a.line.print ++ s = b.line.print ++ t) : a = b ∧ s = t := by
  cases a <;> cases b <;> simp [Dialect.line, Line.print] at h ⊢ <;> exact h

private theorem option_append_inj {P : String → Prop} {write : String → List Char}
    (hcuts : CutsOff P write) {letters : List Char} {c : Char} (hc : c ∉ letters)
    (hwrite : ∀ a, ∃ rest, write a = '\n' :: c :: rest) {x y : Option String} {s t : List Char}
    (hx : ∀ a ∈ x, P a) (hy : ∀ a ∈ y, P a) (hs : AfterBreak letters s) (ht : AfterBreak letters t)
    (h : x.toList.flatMap write ++ s = y.toList.flatMap write ++ t) : x = y ∧ s = t := by
  have hends : ∀ a u, P a → ¬ AfterBreak letters (write a ++ u) := by
    intro a u _
    obtain ⟨rest, hrest⟩ := hwrite a
    rw [hrest]
    exact AfterBreak.not_cons hc (rest ++ u)
  obtain ⟨hlists, hend⟩ := hcuts.flatMap (AfterBreak letters) hends
    (fun a ha => hx a (Option.mem_toList.mp ha)) (fun a ha => hy a (Option.mem_toList.mp ha)) hs ht h
  refine ⟨?_, hend⟩
  cases x <;> cases y <;> simp_all

private theorem imports_append_inj {letters : List Char} (hi : 'i' ∉ letters) {xs ys : List Import}
    {s t : List Char} (hs : AfterBreak letters s) (ht : AfterBreak letters t)
    (h : importsText xs ++ s = importsText ys ++ t) : xs = ys ∧ s = t := by
  have hlines : ∀ (first : Import) rest, ∃ more,
      importsText (first :: rest) = '\n' :: 'i' :: more := fun _ _ => ⟨_, rfl⟩
  cases xs with
  | nil =>
    cases ys with
    | nil => exact ⟨rfl, h⟩
    | cons y ys =>
      obtain ⟨more, hmore⟩ := hlines y ys
      rw [hmore] at h
      have hstart : s = '\n' :: 'i' :: (more ++ t) := h
      exact absurd (hstart ▸ hs) (AfterBreak.not_cons hi _)
  | cons x xs =>
    cases ys with
    | nil =>
      obtain ⟨more, hmore⟩ := hlines x xs
      rw [hmore] at h
      have hstart : t = '\n' :: 'i' :: (more ++ s) := h.symm
      exact absurd (hstart ▸ ht) (AfterBreak.not_cons hi _)
    | cons y ys =>
      have hrows : (x :: xs).flatMap importText ++ s = (y :: ys).flatMap importText ++ t :=
        (List.cons.inj h).2
      have hends : ∀ i u, True → ¬ (importText i ++ u).head? ≠ some 'i' := by
        intro i u _ hne
        exact hne rfl
      exact cutsOff_importText.flatMap (·.head? ≠ some 'i') hends (fun _ _ => trivial)
        (fun _ _ => trivial) (hs.head_ne (by decide)) (ht.head_ne (by decide)) hrows

private theorem afterBreak_body {f : File} :
    AfterBreak ['e', 'm', 's'] (f.body.flatMap Line.print) := by
  have hopens : ∀ {k : Kind} {lines : List Line}, k ≠ .oneof → Opens [⟨0, ""⟩] k lines →
      AfterBreak ['e', 'm', 's'] (lines.flatMap Line.print) := by
    rintro k lines hk ⟨name, rest, rfl⟩
    have hhead : (⟨0, k.word ++ name ++ " \x7b"⟩ : Line).print =
        k.word.toList ++ (name.toList ++ [' ', '\x7b', '\n']) := by
      simp [Line.print, String.toList_append]
    right
    rw [List.singleton_append, List.flatMap_cons, List.flatMap_cons, hhead]
    cases k with
    | enum => exact ⟨'e', by decide, _, rfl⟩
    | message => exact ⟨'m', by decide, _, rfl⟩
    | oneof => exact absurd rfl hk
    | service => exact ⟨'s', by decide, _, rfl⟩
  rw [File.body]
  cases f.enums with
  | cons e enums =>
    rw [List.flatMap_cons, List.append_assoc]
    exact hopens (by decide) (opens_apart e.opens_lines _)
  | nil =>
    cases f.messages with
    | cons m messages =>
      rw [List.flatMap_nil, List.nil_append, List.flatMap_cons, List.append_assoc]
      exact hopens (by decide) (opens_apart m.opens_lines _)
    | nil =>
      cases f.services with
      | cons s services =>
        rw [List.flatMap_nil, List.nil_append, List.flatMap_nil, List.nil_append, List.flatMap_cons]
        exact hopens (by decide) (opens_apart s.opens_lines _)
      | nil => exact Or.inl rfl

private theorem afterBreak_goPackage (f : File) : AfterBreak ['o', 'e', 'm', 's']
    (f.goPackage.toList.flatMap goPackageText ++ f.body.flatMap Line.print) := by
  apply afterBreak_body.append
  cases f.goPackage with
  | none => exact Or.inl rfl
  | some path => exact Or.inr ⟨_, rfl⟩

private theorem afterBreak_imports (f : File) : AfterBreak ['i', 'o', 'e', 'm', 's']
    (importsText f.imports ++
      (f.goPackage.toList.flatMap goPackageText ++ f.body.flatMap Line.print)) := by
  apply (afterBreak_goPackage f).append
  cases f.imports with
  | nil => exact Or.inl rfl
  | cons first rest => exact Or.inr ⟨_, rfl⟩

/-- A printable file is known from its text. -/
theorem File.text_injective {a b : File} (ha : a.isPrintable = true) (hb : b.isPrintable = true)
    (h : a.text = b.text) : a = b := by
  have htext := congrArg String.toList h
  rw [File.toList_text, File.toList_text] at htext
  obtain ⟨hdialect, htext⟩ := dialect_append_inj htext
  obtain ⟨hpackage, htext⟩ := option_append_inj cutsOff_packageText (by decide)
    (fun _ => ⟨_, rfl⟩) (File.isPrintable_iff.mp ha).1 (File.isPrintable_iff.mp hb).1
    (afterBreak_imports a) (afterBreak_imports b) htext
  obtain ⟨himports, htext⟩ := imports_append_inj (by decide) (afterBreak_goPackage a)
    (afterBreak_goPackage b) htext
  obtain ⟨hgoPackage, htext⟩ := option_append_inj cutsOff_goPackageText (by decide)
    (fun _ => ⟨_, rfl⟩) (fun _ _ => trivial) (fun _ _ => trivial) afterBreak_body afterBreak_body
    htext
  obtain ⟨henums, hmessages, hservices⟩ :=
    File.body_injective ha hb (File.body_text_injective ha hb htext)
  obtain ⟨dialect, package, imports, goPackage, enums, messages, services⟩ := a
  obtain ⟨dialect', package', imports', goPackage', enums', messages', services'⟩ := b
  cases hdialect
  cases hpackage
  cases himports
  cases hgoPackage
  cases henums
  cases hmessages
  cases hservices
  rfl

end RpcGateway.Idl
