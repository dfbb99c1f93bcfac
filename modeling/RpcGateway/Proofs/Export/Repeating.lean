import RpcGateway.Proofs.Export.Contents
/-!
# Exports that are repeated

An export that succeeds leaves everything in place for itself: the directory of each file is there, and so is
a file where its text belongs. Nothing that is written later takes that away, so the same export finds it so,
succeeds again with the same records, and puts each text over itself.
-/
namespace RpcGateway.Export

open Disk (GrowsAt KeepsEntries)

variable {out : Path} {d d' : Disk} {f : Schema.File} {files : List Schema.File}
  {records : List Written}

/-- On a disk, everything is in place for a file, so that only its text can change. -/
structure InPlace (out : Path) (f : Schema.File) (d : Disk) : Prop where
  below : pathBelow f.nameText = .ok (Path.ofText f.nameText)
  parent : d.isDirectory (pathOf out f).parent = true
  located : d.locate (pathOf out f) = .ok (pathOf out f).place
  held : ∃ contents, d.find? (pathOf out f).place = some (.file contents)
  takes : d.shortage? (pathOf out f).place (bytesOf f.render) = none

theorem InPlace.keeps (h : InPlace out f d) (hkeeps : KeepsEntries d d') : InPlace out f d' where
  below := h.below
  parent := hkeeps.directories.isDirectory h.parent
  located := hkeeps.directories.locate h.located
  held := by
    obtain ⟨contents, hheld⟩ := h.held
    exact hkeeps.files _ contents hheld
  takes := by rw [Disk.shortage?_congr hkeeps.bounds, h.takes]

private theorem InPlace.not_directory (h : InPlace out f d) :
    d.find? (pathOf out f).place ≠ some .directory := by
  obtain ⟨text, hheld⟩ := h.held
  simp [hheld]

private theorem writeFile_inPlace {record : Written} (h : writeFile out d f = (d', .ok record)) :
    InPlace out f d' := by
  rw [writeFile] at h
  cases hname : pathBelow f.nameText with
  | error e =>
    rw [hname] at h
    cases h
  | ok relative =>
    obtain ⟨-, rfl⟩ := staysBelow_of_pathBelow hname
    simp only [hname] at h
    rw [← pathOf] at h
    split at h
    · cases h
    · rename_i grown hmade
      split at h
      · cases h
      · rename_i after hwritten
        cases h
        obtain ⟨hlocate, hfound, htakes, rfl⟩ := Disk.writeFile_eq_ok hwritten
        have hkeeps := Disk.keepsEntries_put_file hfound (bytesOf f.render)
        exact ⟨hname, hkeeps.directories.isDirectory (Disk.makeDirectories_isDirectory hmade),
          hkeeps.directories.locate hlocate,
          ⟨_, Disk.find?_put_self (Disk.ne_nil_of_find? hfound)⟩, htakes⟩

private theorem writeFiles_inPlace (h : writeFiles out d files = (d', .ok records)) :
    ∀ f ∈ files, InPlace out f d' := by
  induction files generalizing d records with
  | nil => simp
  | cons f rest ih =>
    rw [writeFiles] at h
    rcases hfirst : writeFile out d f with ⟨after, _ | record⟩
    · rw [hfirst] at h
      cases h
    · simp only [hfirst] at h
      have hrest := writeFiles_keepsEntries out after rest
      rcases hmore : writeFiles out after rest with ⟨last, _ | more⟩ <;> rw [hmore] at h hrest <;> cases h
      exact List.forall_mem_cons.mpr ⟨(writeFile_inPlace hfirst).keeps hrest, ih hmore⟩

/-- A disk with the texts of some files at their places, one after the other. -/
def putAll (out : Path) (d : Disk) (files : List Schema.File) : Disk :=
  files.foldl (fun d f => d.put (pathOf out f).place (.file (bytesOf f.render))) d

private theorem writeFile_of_inPlace (h : InPlace out f d) :
    writeFile out d f = (d.put (pathOf out f).place (.file (bytesOf f.render)), .ok (recordOf out f)) := by
  have hwritten : d.writeFile (pathOf out f) f.render =
      (d.put (pathOf out f).place (.file (bytesOf f.render)), .ok ()) :=
    Disk.writeFile_eq_put h.located h.not_directory h.takes
  have hmade := Disk.makeDirectories_eq_self h.parent
  rw [writeFile, h.below]
  simp only []
  rw [← pathOf, hmade]
  simp only [hwritten, recordOf]

private theorem writeFiles_of_inPlace (h : ∀ f ∈ files, InPlace out f d) :
    writeFiles out d files = (putAll out d files, .ok (files.map (recordOf out))) := by
  induction files generalizing d with
  | nil => rfl
  | cons f rest ih =>
    rw [List.forall_mem_cons] at h
    have hkeeps := Disk.keepsEntries_put_file h.1.not_directory (bytesOf f.render)
    have hrest := ih fun g hg => (h.2 g hg).keeps hkeeps
    rw [writeFiles, writeFile_of_inPlace h.1]
    simp only [hrest]
    rfl

private theorem find?_putAll (h : ∀ f ∈ files, (pathOf out f).place ≠ []) (d : Disk) (q : Path) :
    (putAll out d files).find? q =
      ((lastAt out files q).map fun f => DiskEntry.file (bytesOf f.render)).or (d.find? q) := by
  induction files generalizing d with
  | nil => rfl
  | cons f rest ih =>
    rw [List.forall_mem_cons] at h
    have hrest := ih h.2 (d.put (pathOf out f).place (.file (bytesOf f.render)))
    rw [putAll, List.foldl_cons, ← putAll, hrest, lastAt_cons]
    by_cases hsame : (pathOf out f).place = q
    · subst hsame
      rw [Disk.find?_put_self h.1]
      cases lastAt out rest (pathOf out f).place <;> simp
    · rw [Disk.find?_put_of_ne (Ne.symm hsame), if_neg hsame, Option.or_none]

private theorem Leaves.find?_putAll (h : Leaves out files d d') (hplaces : ∀ f ∈ files, InPlace out f d')
    (q : Path) : (putAll out d' files).find? q = d'.find? q := by
  rw [Export.find?_putAll fun f hf => Disk.ne_nil_of_find? (hplaces f hf).not_directory]
  cases hlast : lastAt out files q with
  | none => rfl
  | some f => exact (h.last q f hlast).symm

/-- An export that succeeded succeeds again on the disk that it has left, with the same records, and the same
is then found everywhere on it. -/
theorem writeAll_again {c : Schema.Closure} (h : writeAll out d c = (d', .ok records)) :
    ∃ d'', writeAll out d' c = (d'', .ok records) ∧ ∀ q, d''.find? q = d'.find? q := by
  have hplaces := writeFiles_inPlace h
  obtain ⟨rfl, hleaves⟩ := writeFiles_leaves h
  exact ⟨putAll out d' c.ownFiles, writeFiles_of_inPlace hplaces, hleaves.find?_putAll hplaces⟩

/-- Files that share directories, two of which differ in dots only. -/
def sharedDirectories : Schema.Closure :=
  .ofFiles [bareFile "shop/order.proto" "shop", bareFile "shop/v1/item.proto" "shop.v1",
    bareFile "./shop/./order.proto" "other", bareFile "root.proto" "root"]

/-- They are written below a directory that is reached through one that is missing at first. -/
theorem writeAll_again_sharedDirectories :
    ∃ d' d'', writeAll ["work", "..", "out"] olderDisk sharedDirectories =
        (d', .ok (sharedDirectories.ownFiles.map (recordOf ["work", "..", "out"]))) ∧
      writeAll ["work", "..", "out"] d' sharedDirectories =
        (d'', .ok (sharedDirectories.ownFiles.map (recordOf ["work", "..", "out"]))) ∧
      ∀ q, d''.find? q = d'.find? q := by
  have hresult : (writeAll ["work", "..", "out"] olderDisk sharedDirectories).2 =
      .ok (sharedDirectories.ownFiles.map (recordOf ["work", "..", "out"])) := by
    decide +kernel
  have hwritten : writeAll ["work", "..", "out"] olderDisk sharedDirectories =
      ((writeAll ["work", "..", "out"] olderDisk sharedDirectories).1,
        .ok (sharedDirectories.ownFiles.map (recordOf ["work", "..", "out"]))) :=
    Prod.ext rfl hresult
  obtain ⟨d'', hagain, hsame⟩ := writeAll_again hwritten
  exact ⟨_, d'', hwritten, hagain, hsame⟩

end RpcGateway.Export
