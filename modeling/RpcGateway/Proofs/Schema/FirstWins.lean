import Mathlib.Data.Finset.Card
import Mathlib.Data.List.Induction
import Mathlib.Data.String.Basic
import RpcGateway.Proofs.Schema.Closure
/-!
# First files win

However files are added to the empty closure and names noted missing, the closure holds of each name the first
file that came with it, in the order in which they came. A closure finds a file by searching for its name. The
position of each name can as well be kept in a hash table beside the files: the table never goes out of step
with them, and nobody sees the difference.
-/
namespace RpcGateway.Schema

/-- What is done to a closure. -/
inductive Change where
  | insert (f : File)
  | noteMissing (name : String)

def Change.file? : Change → Option File
  | .insert f => some f
  | .noteMissing _ => none

def Change.missing? : Change → Option String
  | .insert _ => none
  | .noteMissing name => some name

/-- The files that changes add, whether or not there is one with the name already. -/
def inserted (changes : List Change) : List File :=
  changes.filterMap Change.file?

/-- The names that changes note missing. -/
def noted (changes : List Change) : List String :=
  changes.filterMap Change.missing?

private theorem inserted_concat (changes : List Change) (change : Change) :
    inserted (changes ++ [change]) = inserted changes ++ change.file?.toList := by
  rw [inserted, inserted, List.filterMap_append]
  cases change <;> rfl

private theorem noted_concat (changes : List Change) (change : Change) :
    noted (changes ++ [change]) = noted changes ++ change.missing?.toList := by
  rw [noted, noted, List.filterMap_append]
  cases change <;> rfl

/-! ### The first file of each name -/

/-- The files before which there is none with their name. -/
def firsts (files : List File) : List File :=
  (files.zipIdx.filter fun (f, k) => f.nameText ∉ (files.take k).map File.nameText).map Prod.fst

private theorem firsts_concat (files : List File) (f : File) :
    firsts (files ++ [f]) =
      firsts files ++ if f.nameText ∈ files.map File.nameText then [] else [f] := by
  -- What stands before a file does not change when one comes after it.
  have hold : ∀ entry ∈ files.zipIdx, (files ++ [f]).take entry.2 = files.take entry.2 := by
    intro entry hentry
    exact List.take_append_of_le_length (Nat.le_of_lt (List.snd_lt_of_mem_zipIdx hentry))
  rw [firsts, firsts, List.zipIdx_append, List.filter_append, List.map_append]
  congr 1
  · congr 1
    refine List.filter_congr fun entry hentry => ?_
    simp only [hold entry hentry]
  · rw [List.zipIdx_singleton, List.filter_singleton]
    by_cases h : f.nameText ∈ files.map File.nameText
    · simp [h]
    · simp [h]

private theorem firsts_concat_known {files : List File} {f : File}
    (h : f.nameText ∈ files.map File.nameText) : firsts (files ++ [f]) = firsts files := by
  rw [firsts_concat, if_pos h, List.append_nil]

private theorem firsts_concat_new {files : List File} {f : File} (h : f.nameText ∉ files.map File.nameText) :
    firsts (files ++ [f]) = firsts files ++ [f] := by
  rw [firsts_concat, if_neg h]

private theorem mem_names_firsts {files : List File} {name : String} :
    name ∈ (firsts files).map File.nameText ↔ name ∈ files.map File.nameText := by
  induction files using List.reverseRecOn with
  | nil => rfl
  | append_singleton files f ih =>
    by_cases h : f.nameText ∈ files.map File.nameText
    · rw [firsts_concat_known h, ih, List.map_append, List.mem_append, List.map_singleton,
        List.mem_singleton]
      exact (or_iff_left_of_imp fun hname => hname ▸ h).symm
    · rw [firsts_concat_new h]
      simp only [List.map_append, List.mem_append, ih]

private theorem find?_name_eq_none {files : List File} {name : String} (h : name ∉ files.map File.nameText) :
    files.find? (·.nameText == name) = none := by
  rw [List.find?_eq_none]
  intro f hf hname
  exact h (List.mem_map.mpr ⟨f, hf, eq_of_beq hname⟩)

private theorem find?_firsts (files : List File) (name : String) :
    (firsts files).find? (·.nameText == name) = files.find? (·.nameText == name) := by
  induction files using List.reverseRecOn with
  | nil => rfl
  | append_singleton files f ih =>
    by_cases h : f.nameText ∈ files.map File.nameText
    · rw [firsts_concat_known h, List.find?_append, ih]
      by_cases hname : name ∈ files.map File.nameText
      · obtain ⟨g, hg, hgname⟩ := List.mem_map.mp hname
        have hfound : (files.find? (·.nameText == name)).isSome = true :=
          List.find?_isSome.mpr ⟨g, hg, beq_iff_eq.mpr hgname⟩
        rw [Option.or_of_isSome hfound]
      · have hlast : name ∉ [f].map File.nameText := by
          rw [List.map_singleton, List.mem_singleton]
          exact fun hsame => hname (hsame ▸ h)
        rw [find?_name_eq_none hlast, Option.or_none]
    · rw [firsts_concat_new h, List.find?_append, List.find?_append, ih]

private theorem firsts_filter (files : List File) (keeps : String → Bool) :
    firsts (files.filter fun f => keeps f.nameText) =
      (firsts files).filter fun f => keeps f.nameText := by
  induction files using List.reverseRecOn with
  | nil => rfl
  | append_singleton files f ih =>
    rw [List.filter_append]
    cases hkeeps : keeps f.nameText with
    | false =>
      rw [List.filter_singleton, hkeeps, cond_false, List.append_nil, ih]
      by_cases h : f.nameText ∈ files.map File.nameText
      · rw [firsts_concat_known h]
      · rw [firsts_concat_new h, List.filter_append, List.filter_singleton, hkeeps, cond_false,
          List.append_nil]
    | true =>
      have hkept : f.nameText ∈ (files.filter fun f => keeps f.nameText).map File.nameText ↔
          f.nameText ∈ files.map File.nameText := by
        simp only [List.mem_map, List.mem_filter]
        constructor
        · rintro ⟨g, ⟨hg, -⟩, hname⟩
          exact ⟨g, hg, hname⟩
        · rintro ⟨g, hg, hname⟩
          exact ⟨g, ⟨hg, by rw [hname, hkeeps]⟩, hname⟩
      rw [List.filter_singleton, hkeeps, cond_true]
      by_cases h : f.nameText ∈ files.map File.nameText
      · rw [firsts_concat_known (hkept.mpr h), firsts_concat_known h, ih]
      · rw [firsts_concat_new (mt hkept.mp h), firsts_concat_new h, List.filter_append, ih,
          List.filter_singleton, hkeeps, cond_true]

/-! ### Histories of a closure -/

namespace Closure

def change (c : Closure) : Change → Closure
  | .insert f => (c.insert f).1
  | .noteMissing name => c.noteMissing name

/-- The empty closure after some changes. -/
def after (changes : List Change) : Closure :=
  changes.foldl change empty

private theorem after_concat (changes : List Change) (last : Change) :
    after (changes ++ [last]) = (after changes).change last :=
  List.foldl_concat ..

private theorem files_change {c : Closure} {files : List File} (h : c.files = firsts files)
    (change : Change) : (c.change change).files = firsts (files ++ change.file?.toList) := by
  cases change with
  | noteMissing name =>
    simp only [Change.file?, Option.toList_none, List.append_nil]
    exact h
  | insert f =>
    have hnames : f.nameText ∈ c.names ↔ f.nameText ∈ files.map File.nameText := by
      rw [names, h, mem_names_firsts]
    simp only [Change.file?, Option.toList_some, Closure.change]
    by_cases hin : f.nameText ∈ c.names
    · rw [insert_known hin, firsts_concat_known (hnames.mp hin), h]
    · rw [files_insert hin, firsts_concat_new (mt hnames.mpr hin), h]

private theorem files_after (changes : List Change) : (after changes).files = firsts (inserted changes) := by
  induction changes using List.reverseRecOn with
  | nil => rfl
  | append_singleton changes last ih =>
    rw [after_concat, files_change ih, inserted_concat]

private theorem mem_missing_after {changes : List Change} {name : String} :
    name ∈ (after changes).missing ↔ name ∈ noted changes := by
  induction changes using List.reverseRecOn with
  | nil => rfl
  | append_singleton changes last ih =>
    rw [after_concat, noted_concat, List.mem_append]
    cases last with
    | insert f =>
      rw [Closure.change, missing_insert, ih]
      exact (or_iff_left List.not_mem_nil).symm
    | noteMissing other =>
      rw [Closure.change, mem_missing_noteMissing, ih, or_comm]
      exact or_congr_right List.mem_singleton.symm

private theorem pairwise_addSorted {names : List String} (name : String) (h : names.Pairwise (· < ·)) :
    (addSorted name names).Pairwise (· < ·) := by
  induction names with
  | nil => exact List.pairwise_singleton _ _
  | cons other rest ih =>
    obtain ⟨hother, hrest⟩ := List.pairwise_cons.mp h
    rw [addSorted]
    by_cases same : name = other
    · rw [if_pos same]
      exact h
    · rw [if_neg same]
      by_cases before : name < other
      · rw [if_pos before]
        refine List.pairwise_cons.mpr ⟨fun later hlater => ?_, h⟩
        rcases List.mem_cons.mp hlater with rfl | hin
        · exact before
        · exact before.trans (hother later hin)
      · rw [if_neg before]
        refine List.pairwise_cons.mpr ⟨fun later hlater => ?_, ih hrest⟩
        rcases mem_addSorted.mp hlater with rfl | hin
        · exact lt_of_le_of_ne (not_lt.mp before) (Ne.symm same)
        · exact hother later hin

private theorem pairwise_missing_after (changes : List Change) :
    (after changes).missing.Pairwise (· < ·) := by
  induction changes using List.reverseRecOn with
  | nil => exact List.Pairwise.nil
  | append_singleton changes last ih =>
    rw [after_concat]
    cases last with
    | insert f =>
      rw [Closure.change, missing_insert]
      exact ih
    | noteMissing name => exact pairwise_addSorted name ih

/-! ### Positions -/

/-- A name has a position exactly if a file with it stands there, since no name stands twice. -/
private theorem position?_eq_some_iff {c : Closure} {name : String} {i : Nat} :
    c.position? name = some i ↔ ∃ f, c.files[i]? = some f ∧ f.nameText = name := by
  rw [position?, List.findIdx?_eq_some_iff_getElem]
  constructor
  · rintro ⟨hi, hname, -⟩
    exact ⟨c.files[i], List.getElem?_eq_getElem hi, eq_of_beq hname⟩
  · rintro ⟨f, hf, hname⟩
    obtain ⟨hi, rfl⟩ := List.getElem?_eq_some_iff.mp hf
    refine ⟨hi, beq_iff_eq.mpr hname, fun j hji hj => ?_⟩
    have hsame : c.names[j]? = c.names[i]? := by
      rw [names, List.getElem?_map, List.getElem?_map, hf, List.getElem?_eq_getElem (hji.trans hi),
        Option.map_some, Option.map_some, hname, eq_of_beq hj]
    have hjnames : j < c.names.length := by
      rw [names, List.length_map]
      exact hji.trans hi
    exact Nat.ne_of_lt hji ((List.getElem?_inj hjnames c.distinct).mp hsame)

private theorem position?_lt {c : Closure} {name : String} {i : Nat} (h : c.position? name = some i) :
    i < c.files.length := by
  obtain ⟨f, hf, -⟩ := position?_eq_some_iff.mp h
  exact (List.getElem?_eq_some_iff.mp hf).1

private theorem get?_eq_find? (c : Closure) (name : String) :
    c.get? name = c.files.find? (·.nameText == name) :=
  List.find?_eq_bind_findIdx?_getElem?.symm

private theorem contains_eq_isSome_get? (c : Closure) (name : String) :
    c.contains name = (c.get? name).isSome := by
  rw [get?_eq_find?, contains, position?, List.findIdx?_isSome, List.isSome_find?]

private theorem insert_snd (c : Closure) (f : File) : (c.insert f).2 = !c.contains f.nameText := by
  rw [insert]
  by_cases present : c.contains f.nameText = true
  · rw [dif_pos present, present, Bool.not_true]
  · rw [dif_neg present, Bool.eq_false_iff.mpr present, Bool.not_false]

private theorem insert_snd_eq_false_iff {c : Closure} {f : File} :
    (c.insert f).2 = false ↔ f.nameText ∈ c.names := by
  rw [insert_snd, Bool.not_eq_false', contains_iff]

private theorem position?_eq_none_iff {c : Closure} {name : String} :
    c.position? name = none ↔ name ∉ c.names := by
  rw [← contains_iff, contains, Option.isSome_iff_ne_none, not_not]

private theorem position?_insert_new {c : Closure} {f : File} (h : f.nameText ∉ c.names) (name : String) :
    (c.insert f).1.position? name =
      if f.nameText = name then some c.files.length else c.position? name := by
  rw [position?, files_insert h, List.findIdx?_append, ← position?, List.findIdx?_singleton]
  by_cases hsame : f.nameText = name
  · rw [if_pos hsame, if_pos (beq_iff_eq.mpr hsame), position?_eq_none_iff.mpr (hsame ▸ h),
      Option.none_or, Option.map_some, Nat.zero_add]
  · rw [if_neg hsame, if_neg (mt eq_of_beq hsame), Option.map_none, Option.or_none]

end Closure

/-! ### A table of positions -/

/-- A closure with a table of the positions at which the names stand. -/
structure Indexed where
  files : List File
  index : Std.HashMap String Nat
  missing : List String

namespace Indexed

def empty : Indexed := ⟨[], ∅, []⟩

def contains (s : Indexed) (name : String) : Bool :=
  s.index.contains name

/-- The file at the position of a name, if it has one, and if there is a file at that position. -/
def get? (s : Indexed) (name : String) : Option (Option File) :=
  s.index[name]?.map (s.files[·]?)

/-- Adds a file unless its name is in the table, and tells whether it was added. -/
def insert (s : Indexed) (f : File) : Indexed × Bool :=
  if s.index.contains f.nameText = true then (s, false)
  else ({ s with files := s.files ++ [f], index := s.index.insert f.nameText s.files.length }, true)

def fileSet (s : Indexed) : FileSet :=
  ⟨s.files⟩

def noteMissing (s : Indexed) (name : String) : Indexed :=
  { s with missing := Closure.addSorted name s.missing }

def change (s : Indexed) : Change → Indexed
  | .insert f => (s.insert f).1
  | .noteMissing name => s.noteMissing name

/-- The empty table after some changes. -/
def after (changes : List Change) : Indexed :=
  changes.foldl change empty

/-- The table holds what a closure holds, and each name at the position at which its file stands. -/
structure Tracks (s : Indexed) (c : Closure) : Prop where
  files : s.files = c.files
  missing : s.missing = c.missing
  index : ∀ name, s.index[name]? = c.position? name

variable {s : Indexed} {c : Closure}

private theorem tracks_empty : empty.Tracks Closure.empty where
  files := rfl
  missing := rfl
  index _ := Std.HashMap.getElem?_empty

private theorem Tracks.contains_eq (h : s.Tracks c) (name : String) : s.contains name = c.contains name := by
  rw [contains, Std.HashMap.contains_eq_isSome_getElem?, h.index, Closure.contains]

private theorem Tracks.get?_eq (h : s.Tracks c) (name : String) : s.get? name = (c.get? name).map some := by
  rw [get?, h.index, h.files, Closure.get?]
  cases hposition : c.position? name with
  | none => rfl
  | some i =>
    rw [Option.map_some, Option.bind_some, List.getElem?_eq_getElem (Closure.position?_lt hposition)]
    rfl

/-- The table takes a file if the closure takes it, and they stay in step. -/
theorem Tracks.insert (h : s.Tracks c) (f : File) :
    (s.insert f).1.Tracks (c.insert f).1 ∧ (s.insert f).2 = (c.insert f).2 := by
  rw [Closure.insert_snd, Indexed.insert, ← contains, h.contains_eq]
  by_cases hin : f.nameText ∈ c.names
  · have hcontains := Closure.contains_iff.mpr hin
    rw [if_pos hcontains, Closure.insert_known hin, hcontains]
    exact ⟨h, rfl⟩
  · have hcontains := mt Closure.contains_iff.mp hin
    rw [if_neg hcontains, Bool.eq_false_iff.mpr hcontains]
    refine ⟨⟨?_, ?_, fun name => ?_⟩, rfl⟩
    · rw [Closure.files_insert hin, h.files]
    · rw [Closure.missing_insert, h.missing]
    · simp only [Std.HashMap.getElem?_insert, beq_iff_eq]
      rw [Closure.position?_insert_new hin, h.index, h.files]

private theorem Tracks.change (h : s.Tracks c) (change : Change) :
    (s.change change).Tracks (c.change change) := by
  cases change with
  | insert f => exact (h.insert f).1
  | noteMissing name =>
    exact ⟨h.files, congrArg (Closure.addSorted name) h.missing, h.index⟩

private theorem tracks_after (changes : List Change) : (after changes).Tracks (Closure.after changes) :=
  List.foldl_rel tracks_empty fun change _ _ _ h => h.change change

end Indexed

/-! ### What is there after a history -/

/-- A closure that holds the first file of each name, as it should after some changes: every way to look at it
says so. -/
structure IsFirstWins (changes : List Change) (c : Closure) : Prop where
  files : c.files = firsts (inserted changes)
  own : c.ownFiles = firsts ((inserted changes).filter fun f => !isStandard f.nameText)
  names : c.names.Nodup ∧ ∀ name, name ∈ c.names ↔ name ∈ (inserted changes).map File.nameText
  length : c.files.length = ((inserted changes).map File.nameText).toFinset.card
  missing : c.missing.Pairwise (· < ·) ∧ ∀ name, name ∈ c.missing ↔ name ∈ noted changes
  contains : ∀ name, c.contains name = true ↔ name ∈ c.names
  found : ∀ name, c.contains name = (c.get? name).isSome
  get : ∀ name, c.get? name = (inserted changes).find? (·.nameText == name)
  refused : ∀ f : File, (c.insert f).2 = false ↔ f.nameText ∈ c.names
  unchanged : ∀ f : File, (c.insert f).2 = false → (c.insert f).1 = c
  handedOn : c.fileSet = ⟨firsts (inserted changes)⟩ ∧ c.fileSet.files.map File.nameText = c.names ∧
    ∀ name, c.fileSet.files.find? (·.nameText == name) = c.get? name
  collected : c.files = (Closure.ofFiles (inserted changes)).files

/-- A table of positions that shows no difference to a closure. A name is at a position exactly if a file with
that name stands there, so every position in the table leads to a file. -/
structure Indexed.IsInStep (s : Indexed) (c : Closure) : Prop where
  files : s.files = c.files
  missing : s.missing = c.missing
  index : ∀ name i, s.index[name]? = some i ↔ ∃ f : File, s.files[i]? = some f ∧ f.nameText = name
  contains : ∀ name, s.contains name = c.contains name
  get : ∀ name, s.get? name = (c.get? name).map some
  fileSet : s.fileSet = c.fileSet
  insert : ∀ f, (s.insert f).2 = (c.insert f).2
  unchanged : ∀ f, (s.insert f).2 = false → (s.insert f).1 = s

private theorem Indexed.Tracks.isInStep {s : Indexed} {c : Closure} (h : s.Tracks c) : s.IsInStep c where
  files := h.files
  missing := h.missing
  index name i := by rw [h.index, h.files, Closure.position?_eq_some_iff]
  contains := h.contains_eq
  get := h.get?_eq
  fileSet := congrArg FileSet.mk h.files
  insert f := (h.insert f).2
  unchanged f hrefused := by
    rw [(h.insert f).2, Closure.insert_snd, Bool.not_eq_false', ← h.contains_eq] at hrefused
    exact congrArg Prod.fst (if_pos hrefused)

namespace Closure

private theorem ofFiles_eq_after (files : List File) : ofFiles files = after (files.map .insert) := by
  rw [after, List.foldl_map]
  rfl

private theorem inserted_map_insert (files : List File) : inserted (files.map .insert) = files := by
  rw [inserted, List.filterMap_map]
  exact List.filterMap_some

private theorem isFirstWins_after (changes : List Change) : IsFirstWins changes (after changes) where
  files := files_after changes
  own := by rw [ownFiles, files_after, firsts_filter _ fun name => !isStandard name]
  names := ⟨(after changes).distinct, fun name => by rw [names, files_after, mem_names_firsts]⟩
  length := by
    rw [← List.length_map File.nameText, ← List.toFinset_card_of_nodup (after changes).distinct,
      files_after]
    congr 1
    ext name
    rw [List.mem_toFinset, List.mem_toFinset, mem_names_firsts]
  missing := ⟨pairwise_missing_after changes, fun _ => mem_missing_after⟩
  contains _ := contains_iff
  found := (after changes).contains_eq_isSome_get?
  get name := by rw [get?_eq_find?, files_after, find?_firsts]
  refused _ := insert_snd_eq_false_iff
  unchanged _ hrefused := insert_known (insert_snd_eq_false_iff.mp hrefused)
  handedOn := ⟨congrArg FileSet.mk (files_after changes), rfl,
    fun name => ((after changes).get?_eq_find? name).symm⟩
  collected := by rw [ofFiles_eq_after, files_after, files_after, inserted_map_insert]

/-- After any changes of the empty closure, it holds the first file of each name in the order of insertion,
the table of positions is in step with it, and collecting files is adding them one by one. -/
theorem history_isFirstWins (changes : List Change) :
    IsFirstWins changes (after changes) ∧ (Indexed.after changes).IsInStep (after changes) ∧
      ∀ files, ofFiles files = after (files.map .insert) :=
  ⟨isFirstWins_after changes, (Indexed.tracks_after changes).isInStep, ofFiles_eq_after⟩

/-- A file without a name and one with an empty name are files of one name. -/
example (f : File) :
    (after [.insert { f with name := none }, .noteMissing "a", .insert { f with name := some "" }]).files =
      [{ f with name := none }] :=
  rfl

end Closure

end RpcGateway.Schema
