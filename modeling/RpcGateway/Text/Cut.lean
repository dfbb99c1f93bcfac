/-!
# Cuts

Takes texts apart at a known beginning or at a mark.
-/
namespace RpcGateway.Cut

/-- What follows `lead` in a text, if the text starts with it. -/
def after? (lead cs : List Char) : Option (List Char) :=
  if lead.isPrefixOf cs then some (cs.drop lead.length) else none

theorem after?_eq_some_iff {lead cs rest : List Char} :
    after? lead cs = some rest ↔ cs = lead ++ rest := by
  rw [after?, Option.ite_none_right_eq_some, List.isPrefixOf_iff_prefix]
  constructor
  · rintro ⟨⟨tail, rfl⟩, h⟩
    rw [← Option.some.inj h, List.drop_left]
  · rintro rfl
    exact ⟨List.prefix_append _ _, by rw [List.drop_left]⟩

/-- The text before and after the first occurrence of a mark. -/
def around? (mark : Char) : List Char → Option (List Char × List Char)
  | [] => none
  | c :: rest =>
    if c = mark then some ([], rest)
    else (around? mark rest).map fun (before, after) => (c :: before, after)

theorem around?_eq_some_iff {mark : Char} {cs before after : List Char} :
    around? mark cs = some (before, after) ↔ cs = before ++ mark :: after ∧ mark ∉ before := by
  induction cs generalizing before with
  | nil => simp [around?]
  | cons c rest ih =>
    rw [around?]
    by_cases same : c = mark
    · subst same
      rw [if_pos rfl]
      constructor
      · intro h
        cases h
        simp
      · rintro ⟨h, fresh⟩
        cases before with
        | nil => simpa using h
        | cons b more =>
          rw [List.cons_append, List.cons.injEq] at h
          exact absurd h.1 (fun eq => fresh (by simp [eq]))
    · rw [if_neg same, Option.map_eq_some_iff]
      constructor
      · rintro ⟨⟨more, tail⟩, h, eq⟩
        cases eq
        obtain ⟨rfl, fresh⟩ := ih.1 h
        exact ⟨rfl, by simp [fresh, Ne.symm same]⟩
      · rintro ⟨h, fresh⟩
        cases before with
        | nil =>
          rw [List.nil_append, List.cons.injEq] at h
          exact absurd h.1 same
        | cons b more =>
          rw [List.cons_append, List.cons.injEq] at h
          obtain ⟨rfl, rfl⟩ := h
          exact ⟨(more, after), ih.2 ⟨rfl, fun h => fresh (by simp [h])⟩, rfl⟩

theorem around?_eq_none_iff {mark : Char} {cs : List Char} :
    around? mark cs = none ↔ mark ∉ cs := by
  induction cs with
  | nil => simp [around?]
  | cons c rest ih =>
    rw [around?]
    by_cases same : c = mark
    · simp [same]
    · rw [if_neg same, Option.map_eq_none_iff, ih]
      simp [Ne.symm same]

end RpcGateway.Cut
