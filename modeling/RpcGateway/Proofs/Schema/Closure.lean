import Mathlib.Tactic.Tauto
import RpcGateway.Schema.Closure
/-!
# Growing closures

What a closure holds after files were added to it: of each name the first file, in the order in which they
came. What is noted missing does not matter for the files.
-/
namespace RpcGateway.Schema.Closure

theorem files_insert {c : Closure} {f : File} (h : f.nameText ∉ c.names) :
    (c.insert f).1.files = c.files ++ [f] := by
  rw [insert, dif_neg (fun hin => h (contains_iff.mp hin))]

theorem names_insert_new {c : Closure} {f : File} (h : f.nameText ∉ c.names) :
    (c.insert f).1.names = c.names ++ [f.nameText] := by
  rw [names_insert, if_neg (mt contains_iff.mp h)]

theorem insert_known {c : Closure} {f : File} (h : f.nameText ∈ c.names) : (c.insert f).1 = c := by
  rw [insert, dif_pos (contains_iff.mpr h)]

theorem missing_insert (c : Closure) (f : File) : (c.insert f).1.missing = c.missing := by
  rw [insert]
  split <;> rfl

@[simp] theorem names_noteMissing (c : Closure) (name : String) :
    (c.noteMissing name).names = c.names := rfl

theorem mem_missing_noteMissing {c : Closure} {name other : String} :
    other ∈ (c.noteMissing name).missing ↔ other = name ∨ other ∈ c.missing :=
  mem_addSorted

theorem insertAll_cons (c : Closure) (f : File) (rest : List File) :
    c.insertAll (f :: rest) = (c.insert f).1.insertAll rest := rfl

theorem insertAll_append (c : Closure) (xs ys : List File) :
    c.insertAll (xs ++ ys) = (c.insertAll xs).insertAll ys :=
  List.foldl_append

theorem files_insertAll_congr {c c' : Closure} (h : c.files = c'.files) (files : List File) :
    (c.insertAll files).files = (c'.insertAll files).files := by
  induction files generalizing c c' with
  | nil => exact h
  | cons f rest ih =>
    have hnames : c.names = c'.names := by rw [names, names, h]
    rw [insertAll_cons, insertAll_cons]
    apply ih
    by_cases hin : f.nameText ∈ c.names
    · rw [insert_known hin, insert_known (hnames ▸ hin), h]
    · rw [files_insert hin, files_insert (hnames ▸ hin), h]

theorem mem_of_mem_files_insertAll {c : Closure} {files : List File} {f : File}
    (h : f ∈ (c.insertAll files).files) : f ∈ c.files ∨ f ∈ files := by
  induction files generalizing c with
  | nil => exact Or.inl h
  | cons g rest ih =>
    rw [insertAll_cons] at h
    rw [List.mem_cons]
    rcases ih h with hin | hin
    · by_cases hknown : g.nameText ∈ c.names
      · rw [insert_known hknown] at hin
        exact Or.inl hin
      · rw [files_insert hknown, List.mem_append, List.mem_singleton] at hin
        tauto
    · exact Or.inr (Or.inr hin)

end RpcGateway.Schema.Closure
