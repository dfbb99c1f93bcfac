import RpcGateway.Proofs.Schema.Shape
/-!
# Reading type names back

A type as compilers write it has a printable name, and from the name the type can be read again: a scalar
by its keyword, anything else as a reference.
-/
namespace RpcGateway.Schema

open Idl (isIdentifier isDotted)

theorem isReference_iff {name : String} : isReference name = true ↔
    ∃ text : String, name = "." ++ text ∧ isDotted text.toList = true ∧ text ∉ reservedWords := by
  constructor
  · intro h
    rw [isReference] at h
    split at h
    · rename_i rest hname
      rw [Bool.and_eq_true] at h
      refine ⟨String.ofList rest, ?_, by simpa using h.1, by simpa using h.2⟩
      rw [← String.toList_inj, hname]
      simp
    · cases h
  · rintro ⟨text, rfl, hdotted, hfree⟩
    rw [isReference, String.toList_append]
    simp [hdotted, hfree]

private theorem head_ne_dot {cs : List Char} (h : isDotted cs = true) : cs.head? ≠ some '.' := by
  cases cs with
  | nil => simp
  | cons c rest =>
    rintro hdot
    cases hdot
    rw [isDotted, List.splitOn_cons_eq_if_modifyHead] at h
    simp [isIdentifier] at h

theorem dotless_reference {text : String} (h : isDotted text.toList = true) :
    dotless ("." ++ text) = text := by
  have hhead := head_ne_dot h
  rw [dotless, String.toList_append]
  show String.ofList (List.dropWhile (· == '.') ('.' :: text.toList)) = text
  rw [List.dropWhile_cons_of_pos (by decide)]
  cases hchars : text.toList with
  | nil => rw [← String.toList_inj, hchars]; rfl
  | cons c rest =>
    rw [hchars] at hhead
    have hc : c ≠ '.' := by simpa using hhead
    rw [List.dropWhile_cons_of_neg (by simpa using hc), ← hchars, String.ofList_toList]

private theorem isPrintable_of_reference {name : String} (h : isReference name = true) :
    (Idl.TypeRef.named (dotless name)).isPrintable = true := by
  obtain ⟨text, rfl, hdotted, hfree⟩ := isReference_iff.mp h
  rw [dotless_reference hdotted, Idl.TypeRef.isPrintable_named_iff]
  refine ⟨hdotted, ?_⟩
  rintro rfl
  exact hfree List.mem_cons_self

private theorem isPrintable_of_scalar {code : Int} {name : String} (h : scalarNames.lookup code = some name) :
    (Idl.TypeRef.named name).isPrintable = true := by
  have checked : ∀ entry ∈ scalarNames, (Idl.TypeRef.named entry.2).isPrintable = true := by decide
  obtain ⟨before, after, hentries, -⟩ := List.lookup_eq_some_iff.mp h
  exact checked (code, name) (by rw [hentries]; simp)

/-- The code of the type that a keyword stands for. -/
def scalarCode? (text : String) : Option Int :=
  (scalarNames.find? fun entry => entry.2 == text).map Prod.fst

private theorem scalarCode?_of_scalar {code : Int} {name : String} (h : scalarNames.lookup code = some name) :
    scalarCode? name = some code := by
  have checked : ∀ entry ∈ scalarNames, scalarCode? entry.2 = some entry.1 := by decide
  obtain ⟨before, after, hentries, -⟩ := List.lookup_eq_some_iff.mp h
  exact checked (code, name) (by rw [hentries]; simp)

private theorem scalarCode?_of_notMem {text : String} (h : text ∉ reservedWords) :
    scalarCode? text = none := by
  rw [scalarCode?, Option.map_eq_none_iff, List.find?_eq_none]
  intro entry hentry heq
  rw [beq_iff_eq] at heq
  exact h (List.mem_cons_of_mem _ (List.mem_map.mpr ⟨entry, hentry, heq⟩))

def shapeOfType : Idl.TypeRef → TypeShape
  | .placeholder => .unnamed
  | .named text =>
    match scalarCode? text with
    | some code => .scalar code
    | none => .reference ("." ++ text)

private theorem shapeOfType_reference {name : String} (h : isReference name = true) :
    shapeOfType (.named (dotless name)) = .reference name := by
  obtain ⟨text, rfl, hdotted, hfree⟩ := isReference_iff.mp h
  rw [dotless_reference hdotted, shapeOfType, scalarCode?_of_notMem hfree]

/-- The type of a field as compilers write it is written so that it can be read again. -/
theorem Field.typeRef_spec {f : Field} (h : f.isCompilerShaped = true) :
    f.typeRef.isPrintable = true ∧ shapeOfType f.typeRef = f.typeShape := by
  rw [Field.isCompilerShaped, Bool.and_eq_true] at h
  have htype := h.2
  rw [Field.typeRef, Field.typeShape]
  cases hcode : f.type with
  | none =>
    simp only [hcode, Bool.or_eq_true, beq_iff_eq] at htype
    cases hname : f.typeName with
    | none => exact ⟨rfl, by simp [shapeOfType]⟩
    | some name =>
      rw [hname, Option.getD_some] at htype
      by_cases hempty : name = ""
      · subst hempty
        exact ⟨rfl, by simp [shapeOfType]⟩
      · have hreference := htype.resolve_left hempty
        have hnonempty : name.isEmpty = false := by simpa using hempty
        simp only [hnonempty, Option.getD_some, hempty, if_false, Bool.false_eq_true]
        exact ⟨isPrintable_of_reference hreference, shapeOfType_reference hreference⟩
  | some code =>
    simp only [hcode] at htype
    by_cases hdeclared : code = messageCode ∨ code = enumCode
    · have hwritten : code = messageCode ∨ code = enumCode ∨ code = groupCode := by
        rcases hdeclared with h | h <;> simp [h]
      rw [if_pos hdeclared] at htype
      simp only [if_pos hdeclared, if_pos hwritten]
      exact ⟨isPrintable_of_reference htype, shapeOfType_reference htype⟩
    · rw [if_neg hdeclared] at htype
      obtain ⟨name, hname⟩ := Option.isSome_iff_exists.mp htype
      have hgroup : code ≠ groupCode := by
        rintro rfl
        cases hname
      have hwritten : ¬ (code = messageCode ∨ code = enumCode ∨ code = groupCode) := by
        rintro (h | h | h)
        · exact hdeclared (Or.inl h)
        · exact hdeclared (Or.inr h)
        · exact hgroup h
      simp only [if_neg hdeclared, if_neg hwritten, hname]
      refine ⟨isPrintable_of_scalar hname, ?_⟩
      rw [shapeOfType, scalarCode?_of_scalar hname]

end RpcGateway.Schema
