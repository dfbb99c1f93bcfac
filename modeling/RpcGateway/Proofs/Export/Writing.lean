import RpcGateway.Export
import RpcGateway.Proofs.Disk.Changes
/-!
# Writing one file

The ways in which the writing of one file of a closure can end: its name is refused, or the directories on
the way to its path are created as far as possible, or its text stands at the place of its path, or the
beginning of it that the file there takes. The name of a file that is not refused leads below the output
directory.
-/
namespace RpcGateway.Export

open Disk (GrowsAt OnTheWay KeepsEntries)

variable {out : Path} {name : String}

/-- The path that a file is written to. -/
def pathOf (out : Path) (f : Schema.File) : Path :=
  out ++ Path.ofText f.nameText

/-- What is recorded of a file that was written. -/
def recordOf (out : Path) (f : Schema.File) : Written where
  name := f.nameText
  path := pathOf out f
  text := f.render
  namelessTypes := f.namelessTypes

/-- Whether no segment of a name leads up. -/
def StaysBelow (name : String) : Prop :=
  ∀ segment ∈ Path.ofText name, segment ≠ ".."

theorem staysBelow_of_pathBelow {relative : Path} (h : pathBelow name = .ok relative) :
    StaysBelow name ∧ relative = Path.ofText name := by
  rw [pathBelow] at h
  split at h
  · rename_i hsafe
    refine ⟨fun segment hsegment => ?_, (Except.ok.inj h).symm⟩
    have hboth := List.all_eq_true.mp hsafe segment hsegment
    rw [isSafeSegment, Bool.and_eq_true, bne_iff_ne, bne_iff_ne] at hboth
    exact hboth.2
  · cases h

theorem place_pathOf {f : Schema.File} (h : StaysBelow f.nameText) :
    (pathOf out f).place = out.place ++ (Path.ofText f.nameText).normal :=
  Path.place_append_eq h

/-- How the writing of a file may end on a disk. -/
inductive Writes (out : Path) (d : Disk) (f : Schema.File) :
    Disk × Except ExportError Written → Prop
  | refused : Writes out d f (d, .error (.outside f.nameText))
  | stopped {grown : Disk} {path : String} {e : DiskError} (below : StaysBelow f.nameText)
    (growth : GrowsAt (OnTheWay (pathOf out f).parent) d grown) (kept : e.shortage? = none) :
    Writes out d f (grown, .error (.disk path e.message))
  | cut {grown : Disk} (reason : Shortage) (below : StaysBelow f.nameText)
    (growth : GrowsAt (OnTheWay (pathOf out f).parent) d grown)
    (found : grown.find? (pathOf out f).place ≠ some .directory)
    (short : grown.shortage? (pathOf out f).place (bytesOf f.render) = some reason) :
    Writes out d f
      (grown.put (pathOf out f).place (.file (grown.taken (pathOf out f).place (bytesOf f.render))),
        .error (.disk (pathOf out f).text (DiskError.cutShort reason).message))
  | written {grown after : Disk} (below : StaysBelow f.nameText)
    (growth : GrowsAt (OnTheWay (pathOf out f).parent) d grown)
    (written : grown.writeFile (pathOf out f) f.render = (after, .ok ())) :
    Writes out d f (after, .ok (recordOf out f))

theorem writeFile_writes (out : Path) (d : Disk) (f : Schema.File) :
    Writes out d f (writeFile out d f) := by
  rw [writeFile]
  cases hname : pathBelow f.nameText with
  | error e =>
    rw [pathBelow] at hname
    split at hname
    · cases hname
    · obtain rfl := Except.error.inj hname
      exact .refused
  | ok relative =>
    obtain ⟨hbelow, rfl⟩ := staysBelow_of_pathBelow hname
    have hgrowth := Disk.makeDirectories_growsAt d (pathOf out f).parent
    have hkept := Disk.makeDirectories_error d (pathOf out f).parent
    simp only []
    rw [← pathOf]
    rcases hmade : d.makeDirectories (pathOf out f).parent with ⟨grown, e | made⟩
    · rw [hmade] at hgrowth hkept
      exact .stopped hbelow hgrowth (hkept e rfl)
    · rw [hmade] at hgrowth
      have hstored := Disk.writeFile_stored grown (pathOf out f) f.render
      simp only []
      rcases hwritten : grown.writeFile (pathOf out f) f.render with ⟨after, e | done⟩
      · rw [hwritten] at hstored
        cases hstored with
        | kept hwhole => exact .stopped hbelow hgrowth hwhole
        | part hlocate hfound hshort => exact .cut _ hbelow hgrowth hfound hshort
      · exact .written hbelow hgrowth hwritten

/-- What each writing does to the disk, as a relation that goes from one disk to the next, all of them do
together, wherever they stop. -/
theorem writeFiles_carries {R : Disk → Disk → Prop} (refl : ∀ d, R d d)
    (trans : ∀ {d d' d''}, R d d' → R d' d'' → R d d'') {files : List Schema.File}
    (step : ∀ f ∈ files, ∀ d, R d (writeFile out d f).1) (d : Disk) :
    R d (writeFiles out d files).1 := by
  induction files generalizing d with
  | nil => exact refl d
  | cons f rest ih =>
    rw [List.forall_mem_cons] at step
    have hfirst := step.1 d
    rw [writeFiles]
    rcases hwritten : writeFile out d f with ⟨grown, _ | record⟩ <;> rw [hwritten] at hfirst
    · exact hfirst
    · have hrest := trans hfirst (ih step.2 grown)
      simp only []
      rcases hmore : writeFiles out grown rest with ⟨after, _ | records⟩ <;> rw [hmore] at hrest <;>
        exact hrest

theorem writeFile_keepsEntries (out : Path) (d : Disk) (f : Schema.File) :
    KeepsEntries d (writeFile out d f).1 := by
  have hwrites := writeFile_writes out d f
  generalize writeFile out d f = ending at hwrites ⊢
  cases hwrites with
  | refused => exact KeepsEntries.refl d
  | stopped hbelow hgrowth _ => exact hgrowth.keepsEntries
  | cut reason hbelow hgrowth hfound _ =>
    exact hgrowth.keepsEntries.trans (Disk.keepsEntries_put_file hfound _)
  | written hbelow hgrowth hwritten =>
    obtain ⟨-, hfound, -, rfl⟩ := Disk.writeFile_eq_ok hwritten
    exact hgrowth.keepsEntries.trans (Disk.keepsEntries_put_file hfound _)

theorem writeFiles_keepsEntries (out : Path) (d : Disk) (files : List Schema.File) :
    KeepsEntries d (writeFiles out d files).1 :=
  writeFiles_carries KeepsEntries.refl KeepsEntries.trans
    (fun f _ d => writeFile_keepsEntries out d f) d

end RpcGateway.Export
