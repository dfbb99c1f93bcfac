import RpcGateway.Proofs.Export.Writing
/-!
# Exports stay in their directory

Whatever the files of a closure are called, an export changes nothing outside of the output directory, but
for the directories above it that are missing. This holds also of an export that fails. No file is touched
for the sake of a file of the standard library.
-/
namespace RpcGateway.Export

open Disk (GrowsAt OnTheWay)

variable {out : Path} {P : Schema.File → Prop} {d d' d'' : Disk}

/-- The changes that an export below `out` may make to a disk for the files with a property: outside of the
directory it creates what is missing above it, and a file that it creates or changes is one of these files at
the place of its path, with as much of its text as the file there takes. -/
structure IsConfined (out : Path) (P : Schema.File → Prop) (d d' : Disk) : Prop where
  outside : ∀ q, ¬ out.place <+: q → d'.find? q = d.find? q ∨
    OnTheWay out q ∧ d.find? q = none ∧ d'.find? q = some .directory
  files : ∀ q, d'.find? q = d.find? q ∨ d.find? q = none ∧ d'.find? q = some .directory ∨
    ∃ f, P f ∧ q = (pathOf out f).place ∧ d'.find? q = some (.file (d.taken q (bytesOf f.render)))
  bounds : d'.bounds = d.bounds

private theorem IsConfined.refl (out : Path) (P : Schema.File → Prop) (d : Disk) : IsConfined out P d d :=
  ⟨fun _ _ => Or.inl rfl, fun _ => Or.inl rfl, rfl⟩

private theorem IsConfined.trans (h : IsConfined out P d d') (h' : IsConfined out P d' d'') :
    IsConfined out P d d'' where
  outside q hq := by
    rcases h'.outside q hq with hsame | ⟨hway, hnone, hnew⟩
    · rw [hsame]
      exact h.outside q hq
    · rcases h.outside q hq with hsame | ⟨-, -, hdirectory⟩
      · exact Or.inr ⟨hway, hsame ▸ hnone, hnew⟩
      · rw [hdirectory] at hnone
        cases hnone
  files q := by
    rcases h'.files q with hsame | ⟨hnone, hnew⟩ | hfile
    · rw [hsame]
      exact h.files q
    · rcases h.files q with hsame | ⟨-, hdirectory⟩ | ⟨f, -, -, htext⟩
      · exact Or.inr (Or.inl ⟨hsame ▸ hnone, hnew⟩)
      · rw [hdirectory] at hnone
        cases hnone
      · rw [htext] at hnone
        cases hnone
    · simp only [Disk.taken_congr h.bounds] at hfile
      exact Or.inr (Or.inr hfile)
  bounds := h'.bounds.trans h.bounds

private theorem onTheWay_append {p q : Path} (h : ∀ segment ∈ p, segment ≠ "..")
    (hq : OnTheWay (out ++ p) q) : OnTheWay out q ∨ out.place <+: q := by
  obtain ⟨r, ⟨tail, hr⟩, rfl⟩ := hq
  rcases List.append_eq_append_iff.mp hr with ⟨more, hout, -⟩ | ⟨more, rfl, hp⟩
  · exact Or.inl ⟨r, ⟨more, hout.symm⟩, rfl⟩
  · right
    have hmore : ∀ segment ∈ more, segment ≠ ".." := by
      intro segment hsegment
      exact h segment (hp ▸ List.mem_append_left tail hsegment)
    rw [Path.place_append_eq hmore]
    exact List.prefix_append _ _

variable {f : Schema.File}

private theorem isConfined_of_growsAt (hbelow : StaysBelow f.nameText)
    (h : GrowsAt (OnTheWay (pathOf out f).parent) d d') : IsConfined out P d d' where
  outside q hq := by
    rcases h.entries q with hsame | ⟨hway, hnone, hnew⟩
    · exact Or.inl hsame
    · rcases onTheWay_append hbelow (hway.mono (Path.isPrefix_parent _)) with habove | hinside
      · exact Or.inr ⟨habove, hnone, hnew⟩
      · exact absurd hinside hq
  files q := by
    rcases h.entries q with hsame | ⟨-, hnew⟩
    · exact Or.inl hsame
    · exact Or.inr (Or.inl hnew)
  bounds := h.bounds

private theorem isConfined_put (hf : P f) (hbelow : StaysBelow f.nameText)
    (hfound : d.find? (pathOf out f).place ≠ some .directory) :
    IsConfined out P d
      (d.put (pathOf out f).place (.file (d.taken (pathOf out f).place (bytesOf f.render)))) := by
  have hinside : out.place <+: (pathOf out f).place := by
    rw [place_pathOf hbelow]
    exact List.prefix_append _ _
  refine ⟨?_, ?_, rfl⟩
  · intro q hq
    have hne : q ≠ (pathOf out f).place := by
      rintro rfl
      exact hq hinside
    exact Or.inl (Disk.find?_put_of_ne hne)
  · intro q
    by_cases hq : q = (pathOf out f).place
    · subst hq
      exact Or.inr (Or.inr ⟨f, hf, rfl, Disk.find?_put_self (Disk.ne_nil_of_find? hfound)⟩)
    · exact Or.inl (Disk.find?_put_of_ne hq)

private theorem writeFile_isConfined (out : Path) (d : Disk) (hf : P f) :
    IsConfined out P d (writeFile out d f).1 := by
  have hwrites := writeFile_writes out d f
  generalize writeFile out d f = ending at hwrites ⊢
  cases hwrites with
  | refused => exact IsConfined.refl out P d
  | stopped hbelow hgrowth _ => exact isConfined_of_growsAt hbelow hgrowth
  | cut reason hbelow hgrowth hfound _ =>
    exact (isConfined_of_growsAt hbelow hgrowth).trans (isConfined_put hf hbelow hfound)
  | written hbelow hgrowth hwritten =>
    obtain ⟨-, hfound, htakes, rfl⟩ := Disk.writeFile_eq_ok hwritten
    have hput := isConfined_put hf hbelow hfound
    rw [Disk.taken_of_shortage? htakes] at hput
    exact (isConfined_of_growsAt hbelow hgrowth).trans hput

/-- An export changes its directory only, for the files that are not of the standard library only. -/
theorem writeAll_isConfined (out : Path) (d : Disk) (c : Schema.Closure) :
    IsConfined out (fun f => f ∈ c.files ∧ Schema.isStandard f.nameText = false) d
      (writeAll out d c).1 := by
  apply writeFiles_carries (IsConfined.refl out _) IsConfined.trans
  intro f hf d
  obtain ⟨hmem, hown⟩ := List.mem_filter.mp hf
  exact writeFile_isConfined out d ⟨hmem, by simpa using hown⟩

end RpcGateway.Export
