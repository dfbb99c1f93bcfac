import RpcGateway.Idl.OfSchema
import RpcGateway.Schema.Closure
import Mathlib.Data.List.Infix
/-!
# Scoping

What a name in a schema file means. The scopes around it are searched from the innermost one outwards, and
the first that declares the first part of the name decides, even if the rest is not found there. So a type
is met under its full name if the outermost scope alone declares the first part of it.
-/
namespace RpcGateway.Schema

/-- A full name by its parts, from the outermost one inwards. -/
abbrev FullName := List String

/-- The parts of a name between its dots. -/
def partsOf (text : String) : FullName :=
  (text.toList.splitOn '.').map String.ofList

/-- The full name that is written with a dot before each of its parts. -/
def fullName (text : String) : FullName :=
  (partsOf text).tail

/-- Whether a reference is complete: one dot stands before its first part. -/
def isQualified (reference : String) : Bool :=
  match reference.toList with
  | '.' :: rest => rest.head? != some '.'
  | _ => false

private theorem isQualified_iff {reference : String} : isQualified reference = true ↔
    ∃ rest, reference.toList = '.' :: rest ∧ rest.head? ≠ some '.' := by
  rw [isQualified]
  split
  · rename_i rest hchars
    simp [hchars]
  · rename_i hchars
    simp only [Bool.false_eq_true, false_iff]
    rintro ⟨rest, heq, -⟩
    exact hchars rest heq

theorem toList_of_isQualified {reference : String} (h : isQualified reference = true) :
    reference.toList = '.' :: (dotless reference).toList := by
  obtain ⟨rest, hchars, hhead⟩ := isQualified_iff.mp h
  have hrest : rest.dropWhile (· == '.') = rest := by
    cases rest with
    | nil => rfl
    | cons c rest =>
      have hc : c ≠ '.' := by simpa using hhead
      exact List.dropWhile_cons_of_neg (by simpa using hc)
  rw [dotless, hchars, List.dropWhile_cons_of_pos rfl, hrest, String.toList_ofList]

/-- A complete reference is written without its dot, and its parts are those of the full name. -/
theorem partsOf_dotless {reference : String} (h : isQualified reference = true) :
    partsOf (dotless reference) = fullName reference := by
  have hsplit : reference.toList.splitOn '.' = [] :: (dotless reference).toList.splitOn '.' := by
    rw [toList_of_isQualified h, List.splitOn_cons_eq_if_modifyHead, if_pos (beq_self_eq_true '.')]
  rw [fullName, partsOf, partsOf, hsplit]
  rfl

mutual

/-- The full names of the types that a message in `scope` declares: its own, those of its enumerations, and
those of the messages nested in it, entry types included. -/
def Message.typeNames (scope : String) : Message → List FullName
  | ⟨name, _, nested, enums, _, _⟩ =>
    let inner := scope ++ "." ++ name.getD ""
    fullName inner :: enums.map (fun e => fullName (inner ++ "." ++ e.name.getD "")) ++
      typeNamesOf inner nested

def typeNamesOf (scope : String) : List Message → List FullName
  | [] => []
  | m :: rest => m.typeNames scope ++ typeNamesOf scope rest

end

def File.typeNames (f : File) : List FullName :=
  f.enums.map (fun e => fullName (f.scope ++ "." ++ e.name.getD "")) ++ typeNamesOf f.scope f.messages

/-- The scopes that a scope lies in, from itself outwards. -/
def enclosing (scope : FullName) : List FullName :=
  scope.inits.reverse

private theorem enclosing_eq (scope : FullName) :
    enclosing scope = scope.inits.tail.reverse ++ [[]] := by
  cases scope with
  | nil => rfl
  | cons part rest => rw [enclosing, List.inits_cons, List.reverse_cons, List.tail_cons]

private theorem mem_tail_inits {s scope : FullName} : s ∈ scope.inits.tail ↔ s <+: scope ∧ s ≠ [] := by
  cases scope with
  | nil => simp
  | cons part rest =>
    rw [List.inits_cons, List.tail_cons, List.mem_map, List.prefix_cons_iff]
    simp only [List.mem_inits]
    constructor
    · rintro ⟨t, ht, rfl⟩
      exact ⟨Or.inr ⟨t, rfl, ht⟩, List.cons_ne_nil part t⟩
    · rintro ⟨rfl | ⟨t, rfl, ht⟩, hne⟩
      · exact absurd rfl hne
      · exact ⟨t, ht, rfl⟩

private theorem find?_enclosing_eq_nil_iff {p : FullName → Bool} {scope : FullName} :
    (enclosing scope).find? p = some [] ↔ ∀ s, s <+: scope → (p s = true ↔ s = []) := by
  rw [enclosing_eq, List.find?_append]
  cases hinner : scope.inits.tail.reverse.find? p with
  | some found =>
    have hmem := List.mem_reverse.mp (List.mem_of_find?_eq_some hinner)
    obtain ⟨hleads, hne⟩ := mem_tail_inits.mp hmem
    have hfound : p found = true := List.find?_some hinner
    constructor
    · intro heq
      exact absurd (Option.some.inj heq) hne
    · intro h
      exact absurd ((h found hleads).mp hfound) hne
  | none =>
    rw [List.find?_eq_none] at hinner
    have hbefore : ∀ s, s <+: scope → p s = true → s = [] := by
      intro s hs hp
      by_contra hne
      exact hinner s (List.mem_reverse.mpr (mem_tail_inits.mpr ⟨hs, hne⟩)) hp
    have hlast : Option.or none ([[]].find? p) = some [] ↔ p [] = true := by
      cases hp : p [] <;> simp [hp]
    rw [hlast]
    constructor
    · intro hp s hs
      refine ⟨hbefore s hs, ?_⟩
      rintro rfl
      exact hp
    · intro h
      exact (h [] List.nil_prefix).mpr rfl

namespace Closure

def typeNames (c : Closure) : List FullName :=
  c.files.flatMap File.typeNames

/-- Whether a full name is that of a type, of a package, or of one that a package lies in. -/
def declares (c : Closure) (name : FullName) : Bool :=
  c.typeNames.contains name ||
    c.files.any fun f => !name.isEmpty && name.isPrefixOf (fullName f.scope)

/-- The type that a name means in a scope. -/
def resolve (c : Closure) (scope name : FullName) : Option FullName :=
  ((enclosing scope).find? fun s => c.declares (s ++ name.take 1)).bind fun s =>
    if s ++ name ∈ c.typeNames then some (s ++ name) else none

/-- Of the scopes around, the outermost alone declares the first part of a name. -/
def IsUncaptured (c : Closure) (scope name : FullName) : Prop :=
  ∀ s, s <+: scope → (c.declares (s ++ name.take 1) = true ↔ s = [])

theorem resolve_eq_self_iff {c : Closure} {scope name : FullName} (h : name ∈ c.typeNames) :
    c.resolve scope name = some name ↔ c.IsUncaptured scope name := by
  rw [IsUncaptured, ← find?_enclosing_eq_nil_iff, resolve, Option.bind_eq_some_iff]
  constructor
  · rintro ⟨s, hs, hname⟩
    obtain ⟨-, heq⟩ := Option.ite_none_right_eq_some.mp hname
    have hempty : s = [] := List.append_left_eq_self.mp (Option.some.inj heq)
    rw [hs, hempty]
  · intro hs
    exact ⟨[], hs, if_pos h⟩

end Closure

end RpcGateway.Schema
