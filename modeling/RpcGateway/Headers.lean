import RpcGateway.Header
/-!
# Headers of a message

Headers by name. A name may have several values; they stand together where the name first came up, in the
order in which they were added. What each operation does is said by the values of a name afterwards.
-/
namespace RpcGateway

open Header (Name Value)

namespace Headers

/-- Changes the values of a name, which comes last if it is new. -/
def alter (f : List Value → List Value) (name : Name) :
    List (Name × List Value) → List (Name × List Value)
  | [] => [(name, f [])]
  | (other, values) :: rest =>
    if other = name then (other, f values) :: rest else (other, values) :: alter f name rest

variable (f : List Value → List Value) {name : Name} {groups : List (Name × List Value)}

private theorem mem_names_alter {other : Name} (h : other ∈ (alter f name groups).map Prod.fst) :
    other = name ∨ other ∈ groups.map Prod.fst := by
  induction groups with
  | nil => simpa [alter] using h
  | cons group rest ih =>
    obtain ⟨first, values⟩ := group
    rw [alter] at h
    by_cases same : first = name
    · rw [if_pos same] at h
      exact Or.inr (by simpa using h)
    · rw [if_neg same, List.map_cons, List.mem_cons] at h
      rcases h with h | h
      · exact Or.inr (by simp [h])
      · rcases ih h with h | h
        · exact Or.inl h
        · exact Or.inr (by simp [h])

private theorem nodup_alter (h : (groups.map Prod.fst).Nodup) :
    ((alter f name groups).map Prod.fst).Nodup := by
  induction groups with
  | nil => simp [alter]
  | cons group rest ih =>
    obtain ⟨first, values⟩ := group
    rw [List.map_cons, List.nodup_cons] at h
    rw [alter]
    by_cases same : first = name
    · rw [if_pos same, List.map_cons, List.nodup_cons]
      exact h
    · rw [if_neg same, List.map_cons, List.nodup_cons]
      refine ⟨?_, ih h.2⟩
      intro hmem
      rcases mem_names_alter f hmem with hname | hrest
      · exact same hname
      · exact h.1 hrest

private theorem lookup_alter_self :
    (alter f name groups).lookup name = some (f ((groups.lookup name).getD [])) := by
  induction groups with
  | nil => simp [alter]
  | cons group rest ih =>
    obtain ⟨first, values⟩ := group
    rw [alter]
    by_cases same : first = name
    · subst same
      simp
    · have other : (name == first) = false := beq_eq_false_iff_ne.2 (Ne.symm same)
      rw [if_neg same, List.lookup_cons, List.lookup_cons, other]
      exact ih

private theorem lookup_alter_of_ne {other : Name} (h : other ≠ name) :
    (alter f name groups).lookup other = groups.lookup other := by
  induction groups with
  | nil => simp [alter, List.lookup_cons, beq_eq_false_iff_ne.2 h]
  | cons group rest ih =>
    obtain ⟨first, values⟩ := group
    rw [alter]
    by_cases same : first = name
    · subst same
      simp [List.lookup_cons, beq_eq_false_iff_ne.2 h]
    · rw [if_neg same, List.lookup_cons, List.lookup_cons, ih]

private theorem lookup_filter (p : Name → Bool) (name : Name) :
    (groups.filter fun group => p group.1).lookup name =
      if p name then groups.lookup name else none := by
  induction groups with
  | nil => simp
  | cons group rest ih =>
    obtain ⟨first, values⟩ := group
    by_cases same : name = first
    · subst same
      cases h : p name with
      | true => simp [h]
      | false => simpa [h] using ih
    · have other : (name == first) = false := beq_eq_false_iff_ne.2 same
      rw [List.lookup_cons, other, List.filter_cons]
      cases h : p first with
      | true => simpa [List.lookup_cons, other] using ih
      | false => simpa using ih

end Headers

/-- The headers of a message. No name has two groups. -/
structure Headers where
  groups : List (Name × List Value)
  distinct : (groups.map Prod.fst).Nodup
  deriving DecidableEq, Repr

namespace Headers

def empty : Headers := ⟨[], List.nodup_nil⟩

/-- All values of a name in order. -/
def values (headers : Headers) (name : Name) : List Value :=
  (headers.groups.lookup name).getD []

def get? (headers : Headers) (name : Name) : Option Value :=
  (headers.values name).head?

def toList (headers : Headers) : List (Name × Value) :=
  headers.groups.flatMap fun (name, values) => values.map (name, ·)

/-- Adds a value to those of a name. -/
def append (headers : Headers) (name : Name) (value : Value) : Headers :=
  ⟨alter (· ++ [value]) name headers.groups, nodup_alter _ headers.distinct⟩

/-- Puts a value in the place of those of a name. -/
def insert (headers : Headers) (name : Name) (value : Value) : Headers :=
  ⟨alter (fun _ => [value]) name headers.groups, nodup_alter _ headers.distinct⟩

def filter (p : Name → Bool) (headers : Headers) : Headers :=
  ⟨headers.groups.filter fun group => p group.1,
    headers.distinct.sublist (List.filter_sublist.map Prod.fst)⟩

def erase (headers : Headers) (name : Name) : Headers :=
  headers.filter (· ≠ name)

variable (headers : Headers) {name other : Name} (value : Value)

@[simp] theorem values_insert_self : (headers.insert name value).values name = [value] := by
  rw [values, insert, lookup_alter_self]
  rfl

theorem values_insert_of_ne (h : other ≠ name) :
    (headers.insert name value).values other = headers.values other := by
  rw [values, insert, lookup_alter_of_ne _ h]
  rfl

theorem values_filter (p : Name → Bool) :
    (headers.filter p).values name = if p name then headers.values name else [] := by
  rw [values, filter, lookup_filter]
  cases p name <;> rfl

end Headers

end RpcGateway
