import RpcGateway.Idl.OfSchema
import RpcGateway.Proofs.Idl.Text
import RpcGateway.Text.Utf8
/-!
# Reading literals back

How the schema language reads a literal: bytes between two quotes of one kind, some of them written as
escapes; a line feed and NUL may not stand there as themselves. What is printed escapes quotes and
backslashes only, so a literal denotes its text, and its statement stays on one line, exactly if the text
holds neither of the two.
-/
namespace RpcGateway

namespace Idl

namespace Literal

/-- The value of a digit in a base up to sixteen. -/
def digit? (base : Nat) (c : Char) : Option Nat :=
  ("0123456789abcdef".toList.idxOf? c.toLower).filter (· < base)

/-- The longest run of digits at the beginning of a text, of at most so many, and what follows it. -/
def takeDigits (base : Nat) : (most : Nat) → List Char → List Nat × List Char
  | 0, cs => ([], cs)
  | _, [] => ([], [])
  | most + 1, c :: rest =>
    match digit? base c with
    | none => ([], c :: rest)
    | some d => (d :: (takeDigits base most rest).1, (takeDigits base most rest).2)

def number (base : Nat) (digits : List Nat) : Nat :=
  digits.foldl (fun n d => base * n + d) 0

/-- A byte by its number. -/
def readByte (base most : Nat) (cs : List Char) : Option (Bytes × List Char) :=
  let run := takeDigits base most cs
  if run.1.isEmpty then none else some ([UInt8.ofNat (number base run.1)], run.2)

/-- A character by its number, which takes a fixed count of digits. -/
def readCharacter (count : Nat) (cs : List Char) : Option (Bytes × List Char) :=
  let run := takeDigits 16 count cs
  if run.1.length = count ∧ (number 16 run.1).isValidChar then
    some (String.utf8EncodeChar (Char.ofNat (number 16 run.1)), run.2)
  else none

/-- The characters that stand for one byte after a backslash. -/
def letters : List (Char × UInt8) :=
  [('a', 0x07), ('b', 0x08), ('t', 0x09), ('n', 0x0A), ('v', 0x0B), ('f', 0x0C), ('r', 0x0D),
   ('"', 0x22), ('\x27', 0x27), ('\\', 0x5C)]

/-- What stands after a backslash: a letter, or a number with its mark. Octal numbers have none. -/
def readEscape : List Char → Option (Bytes × List Char)
  | [] => none
  | c :: rest =>
    match letters.lookup c with
    | some b => some ([b], rest)
    | none =>
      if c = 'x' ∨ c = 'X' then readByte 16 2 rest
      else if c = 'u' then readCharacter 4 rest
      else if c = 'U' then readCharacter 8 rest
      else readByte 8 3 (c :: rest)

private theorem length_takeDigits (base most : Nat) (cs : List Char) :
    (takeDigits base most cs).1.length + (takeDigits base most cs).2.length = cs.length := by
  fun_induction takeDigits base most cs with
  | case1 => simp
  | case2 => rfl
  | case3 => simp
  | case4 most c rest d _ ih =>
    simp only [List.length_cons]
    omega

private theorem readByte_shorter {base most : Nat} {cs rest : List Char} {bs : Bytes}
    (h : readByte base most cs = some (bs, rest)) : rest.length < cs.length := by
  have hlength := length_takeDigits base most cs
  rw [readByte] at h
  split at h
  · cases h
  · rename_i hdigits
    have hpos : 0 < (takeDigits base most cs).1.length :=
      List.length_pos_iff.mpr fun hnil => hdigits (List.isEmpty_iff.mpr hnil)
    cases h
    omega

private theorem readCharacter_le {count : Nat} {cs rest : List Char} {bs : Bytes}
    (h : readCharacter count cs = some (bs, rest)) : rest.length ≤ cs.length := by
  have hlength := length_takeDigits 16 count cs
  rw [readCharacter] at h
  split at h
  · cases h
    omega
  · cases h

private theorem readEscape_shorter {cs rest : List Char} {bs : Bytes}
    (h : readEscape cs = some (bs, rest)) : rest.length < cs.length := by
  cases cs with
  | nil => cases h
  | cons c more =>
    have hcons : (c :: more).length = more.length + 1 := rfl
    rw [readEscape] at h
    split at h
    · cases h
      omega
    · split at h
      · have := readByte_shorter h
        omega
      · split at h
        · have := readCharacter_le h
          omega
        · split at h
          · have := readCharacter_le h
            omega
          · exact readByte_shorter h

/-- A character that may not stand in a literal as itself. -/
def isForbidden (c : Char) : Bool :=
  c == '\n' || c == '\x00'

/-- The bytes up to the closing quote, and what follows it. -/
def readBody (mark : Char) : List Char → Option (Bytes × List Char)
  | [] => none
  | c :: rest =>
    if c = mark then some ([], rest)
    else if c = '\\' then
      match _h : readEscape rest with
      | none => none
      | some (bs, more) => (readBody mark more).map fun (value, last) => (bs ++ value, last)
    else if isForbidden c then none
    else (readBody mark rest).map fun (value, last) => (String.utf8EncodeChar c ++ value, last)
termination_by cs => cs.length
decreasing_by
  · have := readEscape_shorter _h
    simp only [List.length_cons]
    omega
  · simp

/-- The value of the literal with which a text begins, and what follows it. -/
def read? : List Char → Option (Bytes × List Char)
  | [] => none
  | mark :: rest => if mark = '"' ∨ mark = '\x27' then readBody mark rest else none

private theorem readBody_close (mark : Char) (rest : List Char) :
    readBody mark (mark :: rest) = some ([], rest) := by
  rw [readBody, if_pos rfl]

private theorem readBody_escaped {mark c : Char} {b : UInt8} (hmark : mark ≠ '\\')
    (hletter : letters.lookup c = some b) (rest : List Char) :
    readBody mark ('\\' :: c :: rest) =
      (readBody mark rest).map fun (value, last) => (b :: value, last) := by
  have hescape : readEscape (c :: rest) = some ([b], rest) := by
    rw [readEscape, hletter]
  rw [readBody, if_neg hmark.symm, if_pos rfl]
  split
  · rename_i hnone
    rw [hescape] at hnone
    cases hnone
  · rename_i hsome
    rw [hescape] at hsome
    cases hsome
    rfl

private theorem readBody_plain {mark c : Char} (hmark : c ≠ mark) (hbackslash : c ≠ '\\')
    (rest : List Char) : readBody mark (c :: rest) = if isForbidden c then none
      else (readBody mark rest).map fun (value, last) => (String.utf8EncodeChar c ++ value, last) := by
  rw [readBody, if_neg hmark, if_neg hbackslash]

private theorem lookup_of_escaped {c : Char} (h : c = '"' ∨ c = '\\') :
    ∃ b, letters.lookup c = some b ∧ String.utf8EncodeChar c = [b] ∧ isForbidden c = false := by
  rcases h with rfl | rfl
  · exact ⟨0x22, rfl, by decide, by decide⟩
  · exact ⟨0x5C, rfl, by decide, by decide⟩

/-- What is read back of an escaped text, whatever follows its closing quote. -/
private theorem readBody_escape (cs rest : List Char) : readBody '"' (escape cs ++ '"' :: rest) =
    if cs.any isForbidden then none else some (Utf8.encode cs, rest) := by
  induction cs with
  | nil => exact readBody_close '"' rest
  | cons c cs ih =>
    have hencode : Utf8.encode (c :: cs) = String.utf8EncodeChar c ++ Utf8.encode cs := rfl
    rw [escape_cons, List.any_cons, hencode]
    by_cases hescaped : c = '"' ∨ c = '\\'
    · obtain ⟨b, hletter, hbyte, hallowed⟩ := lookup_of_escaped hescaped
      rw [if_pos hescaped]
      simp only [List.cons_append, List.nil_append]
      rw [readBody_escaped (by decide) hletter, ih, hbyte, hallowed, Bool.false_or]
      cases cs.any isForbidden <;> rfl
    · rw [not_or] at hescaped
      rw [if_neg (not_or.mpr hescaped)]
      simp only [List.cons_append, List.nil_append]
      rw [readBody_plain hescaped.1 hescaped.2, ih]
      cases isForbidden c <;> cases cs.any isForbidden <;> rfl

private theorem read?_literal (s : String) (rest : List Char) : read? ((literal s).toList ++ rest) =
    if s.toList.any isForbidden then none else some (bytesOf s, rest) := by
  have hchars : (literal s).toList ++ rest = '"' :: (escape s.toList ++ '"' :: rest) := by
    simp [literal, String.toList_append]
  rw [hchars, read?, if_pos (.inl rfl)]
  exact readBody_escape s.toList rest

/-- Numbers take as many digits as they can, and a quote of the other kind closes nothing. -/
example : read? "'\\x41g\\1018\\u00e9\"\\n';".toList =
    some ([0x41, 0x67, 0x41, 0x38, 0xC3, 0xA9, 0x22, 0x0A], [';']) := by decide +kernel

private theorem any_isForbidden_eq_false_iff {cs : List Char} :
    cs.any isForbidden = false ↔ '\n' ∉ cs ∧ '\x00' ∉ cs := by
  induction cs with
  | nil => simp
  | cons c cs ih =>
    rw [List.any_cons, Bool.or_eq_false_iff, ih, isForbidden, Bool.or_eq_false_iff, beq_eq_false_iff_ne,
      beq_eq_false_iff_ne, List.mem_cons, List.mem_cons, not_or, not_or, ne_comm, ne_comm (b := '\x00')]
    exact and_and_and_comm

end Literal

/-- A statement of a file that quotes a text after some words. -/
structure Quotation where
  lead : String
  text : String
  deriving DecidableEq

namespace Quotation

def line (q : Quotation) : Line :=
  ⟨0, q.lead ++ literal q.text ++ ";"⟩

/-- Whether a statement is written as it should be: it stays on one line, and what it quotes is one literal,
whatever follows it, and is read as the text. -/
structure IsLegible (q : Quotation) : Prop where
  oneLine : '\n' ∉ q.line.text.toList
  denotes : ∀ rest, Literal.read? ((literal q.text).toList ++ rest) = some (bytesOf q.text, rest)

private theorem mem_escape {c : Char} {cs : List Char} (hc : c ≠ '\\') : c ∈ escape cs ↔ c ∈ cs := by
  induction cs with
  | nil => rfl
  | cons d cs ih =>
    rw [escape_cons, List.mem_append, ih, List.mem_cons]
    split <;> simp [hc]

private theorem oneLine_iff {q : Quotation} (hlead : '\n' ∉ q.lead.toList) :
    '\n' ∉ q.line.text.toList ↔ '\n' ∉ q.text.toList := by
  have hescape : '\n' ∈ escape q.text.toList ↔ '\n' ∈ q.text.toList := mem_escape (by decide)
  simp [line, literal, String.toList_append, hlead, hescape]

private theorem isLegible_iff_of_lead {q : Quotation} (hlead : '\n' ∉ q.lead.toList) :
    q.IsLegible ↔ '\n' ∉ q.text.toList ∧ '\x00' ∉ q.text.toList := by
  rw [← Literal.any_isForbidden_eq_false_iff]
  cases hforbidden : q.text.toList.any Literal.isForbidden with
  | true =>
    refine iff_of_false (fun h => ?_) Bool.noConfusion
    have hread := h.denotes []
    rw [Literal.read?_literal, hforbidden, if_pos rfl] at hread
    cases hread
  | false =>
    refine iff_of_true ⟨?_, fun rest => ?_⟩ rfl
    · exact (oneLine_iff hlead).mpr (Literal.any_isForbidden_eq_false_iff.mp hforbidden).1
    · rw [Literal.read?_literal, hforbidden, if_neg Bool.false_ne_true]

end Quotation

end Idl

namespace Schema.File

open Idl (Quotation)

/-- The statements of a file that quote a text: its imports, each with the word of its visibility, and its
option. -/
def quotations (f : File) : List Quotation :=
  (f.dependencies.zipIdx.map fun (path, index) => ⟨"import " ++ (f.visibility index).text, path⟩) ++
    (f.options.bind (·.goPackage)).toList.map fun path => ⟨"option go_package = ", path⟩

private theorem noBreak_lead {f : File} {q : Quotation} (h : q ∈ f.quotations) : '\n' ∉ q.lead.toList := by
  rw [quotations, List.mem_append, List.mem_map, List.mem_map] at h
  rcases h with ⟨⟨path, index⟩, -, rfl⟩ | ⟨path, -, rfl⟩
  · rw [String.toList_append]
    cases f.visibility index <;> decide
  · have hoption : '\n' ∉ "option go_package = ".toList := by decide
    exact hoption

private theorem apart_sublist (lines : List Idl.Line) : lines.Sublist (Idl.apart lines) := by
  cases lines with
  | nil => exact List.Sublist.refl _
  | cons first rest => exact List.sublist_cons_self _ _

private theorem quotations_sublist (f : File) :
    (f.quotations.map Quotation.line).Sublist f.declare.lines := by
  have himports : f.declare.imports.map Idl.Import.line =
      (f.dependencies.zipIdx.map fun (path, index) =>
        (⟨"import " ++ (f.visibility index).text, path⟩ : Quotation)).map Quotation.line := by
    simp [declare, Quotation.line, Idl.Import.line, Function.comp_def, toString]
  have hoption : f.declare.goPackage.toList.map
      (fun path => (⟨0, s!"option go_package = {Idl.literal path};"⟩ : Idl.Line)) =
        ((f.options.bind (·.goPackage)).toList.map fun path =>
          (⟨"option go_package = ", path⟩ : Quotation)).map Quotation.line := by
    simp [declare, Quotation.line, Function.comp_def, toString]
  have hboth := (apart_sublist (f.declare.imports.map Idl.Import.line)).append
    (apart_sublist (f.declare.goPackage.toList.map
      fun path => ⟨0, s!"option go_package = {Idl.literal path};"⟩))
  rw [quotations, List.map_append, ← himports, ← hoption, Idl.File.lines,
    List.append_assoc (_ :: _) (Idl.apart _) (Idl.apart _)]
  iterate 3 apply List.sublist_append_of_sublist_left
  exact List.sublist_append_of_sublist_right hboth

/-- The imports and the option of a file are lines of its text, and each is legible exactly if the text that
it quotes holds no line feed and no NUL. -/
theorem isLegible_iff (f : File) : (f.quotations.map Quotation.line).Sublist f.declare.lines ∧
    ∀ q ∈ f.quotations, (q.IsLegible ↔ '\n' ∉ q.text.toList ∧ '\x00' ∉ q.text.toList) :=
  ⟨quotations_sublist f, fun _ hq => Idl.Quotation.isLegible_iff_of_lead (noBreak_lead hq)⟩

/-- A file that imports odd names: one with a quote and a backslash, and one that breaks the line. -/
def oddFile : File :=
  ⟨some "odd.proto", none, ["a\"b\\c.proto", "a\nb.proto"], [0], [], [], [], [],
    some ⟨some "odd\tpath"⟩, none⟩

theorem isLegible_iff_odd :
    (⟨"import public ", "a\"b\\c.proto"⟩ : Quotation) ∈ oddFile.quotations ∧
      ((⟨"import public ", "a\"b\\c.proto"⟩ : Quotation).IsLegible ↔
        '\n' ∉ "a\"b\\c.proto".toList ∧ '\x00' ∉ "a\"b\\c.proto".toList) :=
  have hmem : (⟨"import public ", "a\"b\\c.proto"⟩ : Quotation) ∈ oddFile.quotations := by decide
  ⟨hmem, (isLegible_iff oddFile).2 _ hmem⟩

/-- A name that breaks the line breaks the import. -/
theorem not_isLegible_brokenName :
    (⟨"import ", "a\nb.proto"⟩ : Quotation) ∈ oddFile.quotations ∧
      ¬(⟨"import ", "a\nb.proto"⟩ : Quotation).IsLegible :=
  ⟨by decide, fun h => absurd h.oneLine (by decide)⟩

end Schema.File

end RpcGateway
