import RpcGateway.Disk
import RpcGateway.Proofs.Outcome
/-!
# Changes to a disk

Looking a path up leads to its place or fails. Creating directories adds directories at places on the way
to a path, and writing a file replaces what is at its place, by all of the text or as much as the file takes;
nothing else changes, also where an operation fails. Directories are never lost, so a path that could be
looked up still can, and a directory that was created is not created again.
-/
namespace RpcGateway

open Outcome (bind_eq_ok_iff bind_eq_error_iff)

/-- What kept a file from taking all that was written to it. -/
def DiskError.shortage? : DiskError → Option Shortage
  | .cutShort reason => some reason
  | _ => none

namespace Path

variable {here p q : Path}

private theorem place_append (p q : Path) : place (p ++ q) = q.foldl step (place p) :=
  List.foldl_append

private theorem isPrefix_trimDots (p : Path) : trimDots p <+: p := by
  have hsuffix : p.reverse.dropWhile isDot <:+ p.reverse := List.dropWhile_suffix isDot
  rw [trimDots, ← List.reverse_suffix, List.reverse_reverse]
  exact hsuffix

theorem isPrefix_parent (p : Path) : parent p <+: p := by
  have houter : parent p <+: (trimDots p).dropLast := isPrefix_trimDots _
  exact (houter.trans (List.dropLast_prefix _)).trans (isPrefix_trimDots p)

private theorem foldl_step_eq (here : Path) (h : ∀ segment ∈ p, segment ≠ "..") :
    p.foldl step here = here ++ normal p := by
  induction p generalizing here with
  | nil => rw [List.foldl_nil, normal, List.filter_nil, List.append_nil]
  | cons segment rest ih =>
    rw [List.forall_mem_cons] at h
    rw [List.foldl_cons, ih _ h.2, step]
    by_cases hdot : isDot segment = true
    · rw [if_pos hdot, normal, normal, List.filter_cons_of_neg (by simp [hdot])]
    · rw [if_neg hdot, if_neg (by simpa using h.1), normal, normal,
        List.filter_cons_of_pos (by simp [hdot]), List.append_assoc, List.singleton_append]

theorem place_append_eq (h : ∀ segment ∈ q, segment ≠ "..") :
    place (p ++ q) = place p ++ normal q := by
  rw [place_append, foldl_step_eq _ h]

end Path

namespace Disk

variable {d d' d'' : Disk} {here p q : Path} {P Q : Path → Prop} {text : String} {e : DiskError}

private theorem walk_eq_ok (h : d.walk here p = .ok q) : p.foldl Path.step here = q := by
  induction p generalizing here with
  | nil =>
    rw [walk] at h
    exact Except.ok.inj h
  | cons segment rest ih =>
    rw [walk] at h
    split at h
    · cases h
    · split at h
      · cases h
      · cases h
      · exact ih h

private theorem locate_eq_ok (h : d.locate p = .ok q) :
    q = p.place ∧ ∃ here, d.walk [] p.dropLast = .ok here := by
  rw [locate] at h
  obtain ⟨_, -, h⟩ := bind_eq_ok_iff.mp h
  obtain ⟨here, hwalk, h⟩ := bind_eq_ok_iff.mp h
  refine ⟨?_, here, hwalk⟩
  have hhere := walk_eq_ok hwalk
  rcases List.eq_nil_or_concat p with rfl | ⟨before, segment, rfl⟩
  · rw [← hhere] at h
    exact (Except.ok.inj h).symm
  · rw [List.concat_eq_append, List.dropLast_concat] at hhere
    rw [List.concat_eq_append, List.getLast?_concat] at h
    simp only [] at h
    split at h
    · cases h
    · rw [List.concat_eq_append, Path.place_append, Path.place, hhere]
      exact (Except.ok.inj h).symm

private theorem walk_error (h : d.walk here p = .error e) : e.shortage? = none := by
  induction p generalizing here with
  | nil =>
    rw [walk] at h
    cases h
  | cons segment rest ih =>
    rw [walk] at h
    split at h
    · cases h
      rfl
    · split at h
      · cases h
        rfl
      · cases h
        rfl
      · exact ih h

private theorem locate_error (h : d.locate p = .error e) : e.shortage? = none := by
  rw [locate] at h
  rcases bind_eq_error_iff.mp h with htext | ⟨_, -, h⟩
  · rw [checkText] at htext
    split at htext
    · cases htext
      rfl
    · split at htext
      · cases htext
        rfl
      · cases htext
  · rcases bind_eq_error_iff.mp h with hwalk | ⟨here, -, h⟩
    · exact walk_error hwalk
    · split at h
      · cases h
      · split at h
        · cases h
          rfl
        · cases h

/-- Every directory of a disk is a directory of another. -/
def KeepsDirectories (d d' : Disk) : Prop :=
  ∀ q, d.find? q = some .directory → d'.find? q = some .directory

theorem KeepsDirectories.trans (h : KeepsDirectories d d') (h' : KeepsDirectories d' d'') :
    KeepsDirectories d d'' :=
  fun q hq => h' q (h q hq)

theorem KeepsDirectories.walk (h : KeepsDirectories d d') (hwalk : d.walk here p = .ok q) :
    d'.walk here p = .ok q := by
  induction p generalizing here with
  | nil => exact hwalk
  | cons segment rest ih =>
    rw [Disk.walk] at hwalk ⊢
    split at hwalk
    · cases hwalk
    · rename_i hlength
      rw [if_neg hlength]
      split at hwalk
      · cases hwalk
      · cases hwalk
      · rename_i hfound
        rw [h _ hfound]
        exact ih hwalk

theorem KeepsDirectories.locate (h : KeepsDirectories d d') (hlocate : d.locate p = .ok q) :
    d'.locate p = .ok q := by
  obtain ⟨-, here, hwalk⟩ := locate_eq_ok hlocate
  rw [← hlocate, Disk.locate, Disk.locate, h.walk hwalk, hwalk]

/-- A disk has grown by directories at some of the places, and is the same everywhere else. -/
structure GrowsAt (P : Path → Prop) (d d' : Disk) : Prop where
  entries : ∀ q, d'.find? q = d.find? q ∨ P q ∧ d.find? q = none ∧ d'.find? q = some .directory
  bounds : d'.bounds = d.bounds

theorem GrowsAt.refl (P : Path → Prop) (d : Disk) : GrowsAt P d d :=
  ⟨fun _ => Or.inl rfl, rfl⟩

private theorem GrowsAt.imp (h : GrowsAt P d d') (himp : ∀ q, P q → Q q) : GrowsAt Q d d' where
  entries q := (h.entries q).imp_right fun ⟨hq, hnew⟩ => ⟨himp q hq, hnew⟩
  bounds := h.bounds

private theorem GrowsAt.trans (h : GrowsAt P d d') (h' : GrowsAt P d' d'') : GrowsAt P d d'' where
  entries q := by
    rcases h'.entries q with hsame | ⟨hq, hnone, hnew⟩
    · rw [hsame]
      exact h.entries q
    · rcases h.entries q with hsame | ⟨-, -, hdirectory⟩
      · exact Or.inr ⟨hq, hsame ▸ hnone, hnew⟩
      · rw [hdirectory] at hnone
        cases hnone
  bounds := h'.bounds.trans h.bounds

theorem GrowsAt.keepsDirectories (h : GrowsAt P d d') : KeepsDirectories d d' := by
  intro q hq
  rcases h.entries q with hsame | ⟨-, -, hnew⟩
  · rw [hsame, hq]
  · exact hnew

theorem ne_nil_of_find? (h : d.find? q ≠ some .directory) : q ≠ [] := by
  rintro rfl
  exact h rfl

theorem keepsDirectories_put (h : d.find? p ≠ some .directory) (entry : DiskEntry) :
    KeepsDirectories d (d.put p entry) := by
  intro q hq
  have hne : q ≠ p := by
    rintro rfl
    exact h hq
  rw [find?_put_of_ne hne, hq]

private theorem makeDirectory_eq_ok (h : d.makeDirectory p = .ok d') : GrowsAt (· = p.place) d d' := by
  rw [makeDirectory] at h
  obtain ⟨place, hlocate, h⟩ := bind_eq_ok_iff.mp h
  obtain ⟨rfl, -⟩ := locate_eq_ok hlocate
  split at h
  · cases h
  · rename_i hnone
    obtain rfl := Except.ok.inj h
    refine ⟨fun q => ?_, rfl⟩
    by_cases hq : q = p.place
    · subst hq
      have hne : p.place ≠ [] := ne_nil_of_find? (d := d) (by simp [hnone])
      exact Or.inr ⟨rfl, hnone, find?_put_self hne⟩
    · exact Or.inl (find?_put_of_ne hq)

private theorem ensureDirectory_eq_ok (h : d.ensureDirectory p = .ok d') : GrowsAt (· = p.place) d d' := by
  rw [ensureDirectory] at h
  split at h
  · rename_i hmade
    obtain rfl := Except.ok.inj h
    exact makeDirectory_eq_ok hmade
  · split at h
    · obtain rfl := Except.ok.inj h
      exact GrowsAt.refl _ _
    · cases h

/-- The places that a path comes through. -/
def OnTheWay (p : Path) (q : Path) : Prop :=
  ∃ r : Path, r <+: p ∧ q = r.place

theorem OnTheWay.mono (h : p <+: q) {place : Path} (hplace : OnTheWay p place) :
    OnTheWay q place := by
  obtain ⟨r, hr, rfl⟩ := hplace
  exact ⟨r, hr.trans h, rfl⟩

/-- Creating directories adds directories on the way, also if it fails. -/
theorem makeDirectories_growsAt (d : Disk) (p : Path) :
    GrowsAt (OnTheWay p) d (d.makeDirectories p).1 := by
  have honce : ∀ {d d' : Disk} {p : Path}, d.ensureDirectory p = .ok d' → GrowsAt (OnTheWay p) d d' :=
    fun h => (ensureDirectory_eq_ok h).imp fun _ hq => ⟨_, List.prefix_refl _, hq⟩
  have habove : ∀ {p q : Path}, OnTheWay p.parent q → OnTheWay p q :=
    fun h => h.mono (Path.isPrefix_parent _)
  fun_induction makeDirectories d p with
  | case1 p made hmade => exact honce hmade
  | case2 p e hmade hmissing above e' habove' ih =>
    rw [habove'] at ih
    exact ih.imp fun _ => habove
  | case3 p e hmade hmissing above habove' made hagain ih =>
    rw [habove'] at ih
    exact (ih.imp fun _ => habove).trans (honce hagain)
  | case4 p e hmade hmissing above habove' e' hagain ih =>
    rw [habove'] at ih
    exact ih.imp fun _ => habove
  | case5 p e hmade hmissing => exact GrowsAt.refl _ _

theorem makeDirectories_error (d : Disk) (p : Path) :
    ∀ e, (d.makeDirectories p).2 = .error e → e.shortage? = none := by
  have honce : ∀ {d : Disk} {p : Path} {e : DiskError}, d.ensureDirectory p = .error e →
      e.shortage? = none := by
    intro d p e h
    rw [ensureDirectory] at h
    split at h
    · cases h
    · rename_i e' hmade
      split at h
      · cases h
      · cases h
        rw [makeDirectory] at hmade
        rcases bind_eq_error_iff.mp hmade with hlocate | ⟨place, -, hmade⟩
        · exact locate_error hlocate
        · split at hmade
          · cases hmade
            rfl
          · cases hmade
  fun_induction makeDirectories d p with
  | case1 p made hmade =>
    intro e h
    cases h
  | case2 p e hmade hmissing above e' habove ih =>
    rw [habove] at ih
    exact ih
  | case3 p e hmade hmissing above habove made hagain ih =>
    intro e h
    cases h
  | case4 p e hmade hmissing above habove e' hagain ih =>
    intro e h
    cases h
    exact honce hagain
  | case5 p e hmade hmissing =>
    intro e h
    cases h
    exact honce hmade

private theorem isDirectory_iff :
    d.isDirectory p = true ↔ d.locate p = .ok p.place ∧ d.find? p.place = some .directory := by
  rw [isDirectory]
  cases hlocate : d.locate p with
  | error e => simp
  | ok place =>
    obtain ⟨rfl, -⟩ := locate_eq_ok hlocate
    simp

theorem KeepsDirectories.isDirectory (h : KeepsDirectories d d') (hp : d.isDirectory p = true) :
    d'.isDirectory p = true := by
  rw [isDirectory_iff] at hp ⊢
  exact ⟨h.locate hp.1, h _ hp.2⟩

private theorem makeDirectory_isDirectory (h : d.makeDirectory p = .ok d') : d'.isDirectory p = true := by
  have hgrowth := (makeDirectory_eq_ok h).keepsDirectories
  rw [makeDirectory] at h
  obtain ⟨place, hlocate, h⟩ := bind_eq_ok_iff.mp h
  obtain ⟨rfl, -⟩ := locate_eq_ok hlocate
  split at h
  · cases h
  · rename_i hnone
    have hne : p.place ≠ [] := ne_nil_of_find? (d := d) (by simp [hnone])
    refine isDirectory_iff.mpr ⟨hgrowth.locate hlocate, ?_⟩
    rw [← Except.ok.inj h, find?_put_self hne]

private theorem ensureDirectory_isDirectory (h : d.ensureDirectory p = .ok d') : d'.isDirectory p = true := by
  rw [ensureDirectory] at h
  split at h
  · rename_i hmade
    obtain rfl := Except.ok.inj h
    exact makeDirectory_isDirectory hmade
  · split at h
    · rename_i hthere
      obtain rfl := Except.ok.inj h
      exact hthere
    · cases h

theorem makeDirectories_isDirectory (h : d.makeDirectories p = (d', .ok ())) :
    d'.isDirectory p = true := by
  rw [makeDirectories] at h
  split at h
  · rename_i hmade
    cases h
    exact ensureDirectory_isDirectory hmade
  · split at h
    · split at h
      · cases h
      · split at h
        · rename_i hagain
          cases h
          exact ensureDirectory_isDirectory hagain
        · cases h
    · cases h

theorem makeDirectories_eq_self (h : d.isDirectory p = true) : d.makeDirectories p = (d, .ok ()) := by
  obtain ⟨hlocate, hfound⟩ := isDirectory_iff.mp h
  have hexists : d.makeDirectory p = .error .exists := by
    simp only [makeDirectory, hlocate, bind, Except.bind, hfound]
    rfl
  have hensured : d.ensureDirectory p = .ok d := by
    rw [ensureDirectory, hexists]
    simp only [h, if_true]
  rw [makeDirectories, hensured]

/-! ### Writing a file -/

theorem taken_of_shortage? {contents : Bytes} (h : d.shortage? p contents = none) :
    d.taken p contents = contents := by
  rw [shortage?] at h
  rw [taken]
  cases hbound : d.bounds.lookup p with
  | none => rfl
  | some bound =>
    simp only [hbound, ite_eq_left_iff] at h
    by_cases hfits : contents.length ≤ bound.bytes
    · exact List.take_of_length_le hfits
    · cases h hfits

theorem taken_congr (h : d'.bounds = d.bounds) (p : Path) (contents : Bytes) :
    d'.taken p contents = d.taken p contents := by
  rw [taken, taken, h]

theorem shortage?_congr (h : d'.bounds = d.bounds) (p : Path) (contents : Bytes) :
    d'.shortage? p contents = d.shortage? p contents := by
  rw [shortage?, shortage?, h]

/-- How the writing of a text to a path ends: nothing is opened, or the file at its place, which was none or
another file, takes all of the text or a part of it. -/
inductive Stored (d : Disk) (p : Path) (text : String) : Disk × Except DiskError Unit → Prop
  | kept {e : DiskError} (herror : e.shortage? = none) : Stored d p text (d, .error e)
  | whole (hlocate : d.locate p = .ok p.place) (hfound : d.find? p.place ≠ some .directory)
      (htakes : d.shortage? p.place (bytesOf text) = none) :
      Stored d p text (d.put p.place (.file (bytesOf text)), .ok ())
  | part {reason : Shortage} (hlocate : d.locate p = .ok p.place)
      (hfound : d.find? p.place ≠ some .directory)
      (hshort : d.shortage? p.place (bytesOf text) = some reason) :
      Stored d p text (d.put p.place (.file (d.taken p.place (bytesOf text))), .error (.cutShort reason))

theorem writeFile_stored (d : Disk) (p : Path) (text : String) : Stored d p text (d.writeFile p text) := by
  rw [writeFile]
  cases hlocate : d.locate p with
  | error e => exact .kept (locate_error hlocate)
  | ok place =>
    obtain ⟨rfl, -⟩ := locate_eq_ok hlocate
    simp only []
    split
    · exact .kept rfl
    · rename_i hfound
      cases hshort : d.shortage? p.place (bytesOf text) with
      | none =>
        simp only [taken_of_shortage? hshort]
        exact .whole hlocate hfound hshort
      | some reason => exact .part hlocate hfound hshort

theorem writeFile_eq_ok (h : d.writeFile p text = (d', .ok ())) :
    d.locate p = .ok p.place ∧ d.find? p.place ≠ some .directory ∧
      d.shortage? p.place (bytesOf text) = none ∧ d' = d.put p.place (.file (bytesOf text)) := by
  have hstored := writeFile_stored d p text
  rw [h] at hstored
  cases hstored with
  | whole hlocate hfound htakes => exact ⟨hlocate, hfound, htakes, rfl⟩

theorem writeFile_eq_put (hlocate : d.locate p = .ok p.place) (hfound : d.find? p.place ≠ some .directory)
    (htakes : d.shortage? p.place (bytesOf text) = none) :
    d.writeFile p text = (d.put p.place (.file (bytesOf text)), .ok ()) := by
  rw [writeFile, hlocate]
  simp only [htakes, taken_of_shortage? htakes]

/-! ### What is kept -/

/-- Nothing is removed from a disk, no directory becomes a file or a file a directory, and the bounds of files
stay as they are. -/
structure KeepsEntries (d d' : Disk) : Prop where
  directories : KeepsDirectories d d'
  files : ∀ q contents, d.find? q = some (.file contents) → ∃ contents', d'.find? q = some (.file contents')
  bounds : d'.bounds = d.bounds

theorem KeepsEntries.refl (d : Disk) : KeepsEntries d d :=
  ⟨fun _ hq => hq, fun _ contents hq => ⟨contents, hq⟩, rfl⟩

theorem KeepsEntries.trans (h : KeepsEntries d d') (h' : KeepsEntries d' d'') : KeepsEntries d d'' where
  directories := h.directories.trans h'.directories
  files q contents hq := by
    obtain ⟨contents', hq'⟩ := h.files q contents hq
    exact h'.files q contents' hq'
  bounds := h'.bounds.trans h.bounds

theorem GrowsAt.keepsEntries {P : Path → Prop} (h : GrowsAt P d d') : KeepsEntries d d' where
  directories := h.keepsDirectories
  files q contents hq := by
    rcases h.entries q with hsame | ⟨-, hnone, -⟩
    · exact ⟨contents, hsame.trans hq⟩
    · rw [hq] at hnone
      cases hnone
  bounds := h.bounds

theorem keepsEntries_put_file (h : d.find? p ≠ some .directory) (contents : Bytes) :
    KeepsEntries d (d.put p (.file contents)) where
  directories := keepsDirectories_put h _
  files q older hq := by
    by_cases hsame : q = p
    · subst hsame
      exact ⟨contents, find?_put_self (ne_nil_of_find? h)⟩
    · exact ⟨older, (find?_put_of_ne hsame).trans hq⟩
  bounds := rfl

end Disk

end RpcGateway
