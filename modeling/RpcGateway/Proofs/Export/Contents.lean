import Mathlib.Data.List.Nodup
import RpcGateway.Proofs.Export.Writing
/-!
# What a finished export leaves on the disk

An export that succeeds has written every file of the closure that is not of the standard library, in order.
The file at a path holds the text of the last of them whose path leads to the same place. Names that differ
in dots only lead to one place, so nothing is lost exactly if no two names are the same without their dots.
-/
namespace RpcGateway

open Outcome (bind_eq_ok_iff)

namespace Disk

/-- The contents of the file that a path leads to. -/
def readFile (d : Disk) (p : Path) : Except DiskError Bytes := do
  let place ← d.locate p
  match d.find? place with
  | some (.file contents) => return contents
  | some .directory => throw .isDirectory
  | none => throw .notFound

private theorem readFile_eq_ok {d : Disk} {p place : Path} {contents : Bytes}
    (hlocate : d.locate p = .ok place) (hfound : d.find? place = some (.file contents)) :
    d.readFile p = .ok contents := by
  refine bind_eq_ok_iff.mpr ⟨place, hlocate, ?_⟩
  rw [hfound]
  rfl

end Disk

namespace Export

open Disk (GrowsAt OnTheWay KeepsDirectories)

variable {out : Path} {d d' : Disk} {files : List Schema.File} {records : List Written}

/-- The last of some files whose path leads to a place. -/
def lastAt (out : Path) (files : List Schema.File) (q : Path) : Option Schema.File :=
  files.reverse.find? fun f => (pathOf out f).place == q

theorem lastAt_cons (out : Path) (f : Schema.File) (rest : List Schema.File) (q : Path) :
    lastAt out (f :: rest) q =
      (lastAt out rest q).or (if (pathOf out f).place = q then some f else none) := by
  rw [lastAt, List.reverse_cons, List.find?_append, lastAt, List.find?_singleton]
  simp only [beq_iff_eq]

private theorem mem_of_lastAt {f : Schema.File} {q : Path} (h : lastAt out files q = some f) :
    f ∈ files ∧ (pathOf out f).place = q :=
  ⟨List.mem_reverse.mp (List.mem_of_find?_eq_some h), by simpa using List.find?_some h⟩

/-- What files that were written one after the other have left on a disk. -/
structure Leaves (out : Path) (files : List Schema.File) (d d' : Disk) : Prop where
  below : ∀ f ∈ files, StaysBelow f.nameText
  keepsDirectories : KeepsDirectories d d'
  located : ∀ f ∈ files, d'.locate (pathOf out f) = .ok (pathOf out f).place
  last : ∀ q f, lastAt out files q = some f → d'.find? q = some (.file (bytesOf f.render))
  others : ∀ q, lastAt out files q = none →
    d'.find? q = d.find? q ∨ d.find? q = none ∧ d'.find? q = some .directory

private theorem Leaves.nil (out : Path) (d : Disk) : Leaves out [] d d where
  below _ hf := by cases hf
  keepsDirectories _ hq := hq
  located _ hf := by cases hf
  last _ _ hlast := by cases hlast
  others _ _ := Or.inl rfl

private theorem Leaves.cons {f : Schema.File} {rest : List Schema.File} {grown after : Disk}
    (hbelow : StaysBelow f.nameText) (hgrowth : GrowsAt (OnTheWay (pathOf out f).parent) d grown)
    (hwritten : grown.writeFile (pathOf out f) f.render = (after, .ok ()))
    (h : Leaves out rest after d') : Leaves out (f :: rest) d d' := by
  obtain ⟨hlocate, hfound, -, rfl⟩ := Disk.writeFile_eq_ok hwritten
  have hkeeps := Disk.keepsDirectories_put hfound (.file (bytesOf f.render))
  have hput : (grown.put (pathOf out f).place (.file (bytesOf f.render))).find? (pathOf out f).place =
      some (.file (bytesOf f.render)) := Disk.find?_put_self (Disk.ne_nil_of_find? hfound)
  -- The text of the file is not lost to a directory later.
  have hstays : lastAt out rest (pathOf out f).place = none →
      d'.find? (pathOf out f).place = some (.file (bytesOf f.render)) := by
    intro hlast
    rcases h.others _ hlast with hsame | ⟨hnone, -⟩
    · rw [hsame, hput]
    · rw [hput] at hnone
      cases hnone
  constructor
  · exact List.forall_mem_cons.mpr ⟨hbelow, h.below⟩
  · exact hgrowth.keepsDirectories.trans (hkeeps.trans h.keepsDirectories)
  · exact List.forall_mem_cons.mpr
      ⟨h.keepsDirectories.locate (hkeeps.locate hlocate), h.located⟩
  · intro q g hlast
    rw [lastAt_cons, Option.or_eq_some_iff] at hlast
    rcases hlast with hlast | ⟨hlast, hfirst⟩
    · exact h.last q g hlast
    · rw [Option.ite_none_right_eq_some] at hfirst
      obtain ⟨rfl, hsame⟩ := hfirst
      cases hsame
      exact hstays hlast
  · intro q hlast
    rw [lastAt_cons, Option.or_eq_none_iff] at hlast
    have hne : q ≠ (pathOf out f).place := by
      rintro rfl
      simp at hlast
    have hgrown : (grown.put (pathOf out f).place (.file (bytesOf f.render))).find? q = grown.find? q :=
      Disk.find?_put_of_ne hne
    rcases h.others q hlast.1 with hsame | ⟨hnone, hnew⟩
    · rw [hsame, hgrown]
      exact (hgrowth.entries q).imp_right And.right
    · rw [hgrown] at hnone
      rcases hgrowth.entries q with hsame | ⟨-, -, hdirectory⟩
      · exact Or.inr ⟨hsame ▸ hnone, hnew⟩
      · rw [hdirectory] at hnone
        cases hnone

theorem writeFiles_leaves (h : writeFiles out d files = (d', .ok records)) :
    records = files.map (recordOf out) ∧ Leaves out files d d' := by
  induction files generalizing d records with
  | nil =>
    obtain ⟨rfl, hrecords⟩ := Prod.mk.inj h
    exact ⟨(Except.ok.inj hrecords).symm, Leaves.nil out d⟩
  | cons f rest ih =>
    have hwrites := writeFile_writes out d f
    rw [writeFiles] at h
    generalize writeFile out d f = ending at hwrites h
    cases hwrites with
    | refused => cases h
    | stopped hbelow hgrowth hkept => cases h
    | cut reason hbelow hgrowth hfound hshort => cases h
    | @written grown after hbelow hgrowth hwritten =>
      simp only [] at h
      rcases hmore : writeFiles out after rest with ⟨last, _ | more⟩ <;> rw [hmore] at h <;> cases h
      obtain ⟨rfl, hleaves⟩ := ih hmore
      exact ⟨rfl, hleaves.cons hbelow hgrowth hwritten⟩

/-- Nothing that was recorded is lost: the file at the path of each record holds its text, and no two of
the paths lead to one file. -/
structure IsFaithful (d : Disk) (records : List Written) : Prop where
  held : ∀ w ∈ records, d.readFile w.path = .ok (bytesOf w.text)
  apart : (records.map fun w => w.path.place).Nodup

/-- The name of a file without its dots. -/
def plainName (f : Schema.File) : Path :=
  (Path.ofText f.nameText).normal

private theorem Leaves.nodup_iff (h : Leaves out files d d') :
    (files.map fun f => (pathOf out f).place).Nodup ↔ (files.map plainName).Nodup := by
  have hplaces : (files.map fun f => (pathOf out f).place) =
      (files.map plainName).map (out.place ++ ·) := by
    rw [List.map_map]
    exact List.map_congr_left fun f hf => place_pathOf (h.below f hf)
  rw [hplaces, List.nodup_map_iff (List.append_right_injective _)]

/-- The file at the path of a record holds the text of the last file that leads to its place. -/
theorem Leaves.readFile (h : Leaves out files d d') {f : Schema.File} (hf : f ∈ files) :
    ∃ last, lastAt out files (pathOf out f).place = some last ∧
      d'.readFile (pathOf out f) = .ok (bytesOf last.render) := by
  have hsome : (lastAt out files (pathOf out f).place).isSome = true := by
    rw [lastAt, List.find?_isSome]
    exact ⟨f, List.mem_reverse.mpr hf, by simp⟩
  obtain ⟨last, hlast⟩ := Option.isSome_iff_exists.mp hsome
  exact ⟨last, hlast, Disk.readFile_eq_ok (h.located f hf) (h.last _ _ hlast)⟩

private theorem Leaves.isFaithful_iff (h : Leaves out files d d') :
    IsFaithful d' (files.map (recordOf out)) ↔ (files.map plainName).Nodup := by
  have hplaces : (files.map (recordOf out)).map (fun w => w.path.place) =
      files.map fun f => (pathOf out f).place := List.map_map
  constructor
  · intro hfaithful
    rw [← h.nodup_iff, ← hplaces]
    exact hfaithful.apart
  · intro hnames
    have hapart := h.nodup_iff.mpr hnames
    refine ⟨?_, hplaces ▸ hapart⟩
    intro w hw
    obtain ⟨f, hf, rfl⟩ := List.mem_map.mp hw
    obtain ⟨last, hlast, hread⟩ := h.readFile hf
    obtain ⟨hmem, hplace⟩ := mem_of_lastAt hlast
    obtain rfl := List.inj_on_of_nodup_map hapart hmem hf hplace
    exact hread

/-- A finished export has recorded the files that are not of the standard library in order, and at the path
of each there is the text of the last file that leads to this place. It has lost nothing exactly if no two
of these files have the same name without dots. -/
theorem writeAll_isFaithful_iff {c : Schema.Closure} (h : writeAll out d c = (d', .ok records)) :
    records = c.ownFiles.map (recordOf out) ∧
      (∀ f ∈ c.ownFiles, ∃ last, lastAt out c.ownFiles (pathOf out f).place = some last ∧
        d'.readFile (pathOf out f) = .ok (bytesOf last.render)) ∧
      (IsFaithful d' records ↔ (c.ownFiles.map plainName).Nodup) := by
  obtain ⟨rfl, hleaves⟩ := writeFiles_leaves h
  exact ⟨rfl, fun f hf => hleaves.readFile hf, hleaves.isFaithful_iff⟩

/-- A file without declarations. -/
def bareFile (name package : String) : Schema.File :=
  ⟨some name, some package, [], [], [], [], [], [], none, some "proto3"⟩

/-- Files below two directories, and one of the standard library. -/
def orderFiles : Schema.Closure :=
  .ofFiles [bareFile "shop/./order.proto" "shop",
    bareFile "google/protobuf/empty.proto" "google.protobuf", bareFile "root.proto" "root"]

/-- A disk that holds an older text of one of them. -/
def olderDisk : Disk :=
  ⟨[(["out"], .directory), (["out", "root.proto"], .file (bytesOf "old"))], []⟩

theorem writeAll_isFaithful_iff_orderFiles :
    writeAll ["out"] olderDisk orderFiles =
        ((writeAll ["out"] olderDisk orderFiles).1, .ok (orderFiles.ownFiles.map (recordOf ["out"]))) ∧
      IsFaithful (writeAll ["out"] olderDisk orderFiles).1
        (orderFiles.ownFiles.map (recordOf ["out"])) := by
  have hresult : (writeAll ["out"] olderDisk orderFiles).2 =
      .ok (orderFiles.ownFiles.map (recordOf ["out"])) := by decide +kernel
  have hwritten : writeAll ["out"] olderDisk orderFiles =
      ((writeAll ["out"] olderDisk orderFiles).1, .ok (orderFiles.ownFiles.map (recordOf ["out"]))) :=
    Prod.ext rfl hresult
  have hnames : (orderFiles.ownFiles.map plainName).Nodup := by decide +kernel
  exact ⟨hwritten, (writeAll_isFaithful_iff hwritten).2.2.mpr hnames⟩

/-- Two files whose names are the same without dots. -/
def dottedTwins : Schema.Closure :=
  .ofFiles [bareFile "a.proto" "one", bareFile "./a.proto" "two"]

/-- Both files are recorded, but the path of the first leads to the text of the second. -/
theorem not_isFaithful_dottedTwins :
    (writeAll ["out"] .empty dottedTwins).2 = .ok (dottedTwins.ownFiles.map (recordOf ["out"])) ∧
      (writeAll ["out"] .empty dottedTwins).1.readFile (pathOf ["out"] (bareFile "a.proto" "one")) =
        .ok (bytesOf (bareFile "./a.proto" "two").render) ∧
      (bareFile "./a.proto" "two").render ≠ (bareFile "a.proto" "one").render ∧
      ¬ IsFaithful (writeAll ["out"] .empty dottedTwins).1
        (dottedTwins.ownFiles.map (recordOf ["out"])) := by
  refine ⟨by decide +kernel, by decide +kernel, by decide +kernel, ?_⟩
  intro h
  exact absurd h.apart (by decide +kernel)

end Export

end RpcGateway
