import Mathlib.Data.List.Induction
import Mathlib.Data.List.Nodup
import RpcGateway.Proofs.Schema.Closure
import RpcGateway.Reflection.Discovery
/-!
# Steps of a walk

What taking in the files of a response does to a walk, said once: a file whose name is there changes
nothing, and any other is added last while those of its imports that are not known yet are queued in
order, each once.
-/
namespace RpcGateway.Reflection

open Schema (File Closure)

theorem eraseDups_concat (names : List String) (n : String) :
    (names ++ [n]).eraseDups = names.eraseDups ++ if n ∈ names then [] else [n] := by
  rw [List.eraseDups_append]
  by_cases hn : n ∈ names <;> simp [List.removeAll, hn, List.eraseDups_cons]

private theorem nodup_eraseDups (names : List String) : names.eraseDups.Nodup := by
  induction names using List.reverseRecOn with
  | nil => simp
  | append_singleton rest n ih =>
    rw [eraseDups_concat]
    by_cases hn : n ∈ rest
    · simpa [hn] using ih
    · rw [if_neg hn, List.nodup_append]
      refine ⟨ih, by simp, ?_⟩
      intro m hm other hother heq
      rw [List.mem_singleton] at hother
      rw [List.mem_eraseDups] at hm
      exact hn (hother ▸ heq ▸ hm)

theorem filter_eraseDups (p : String → Bool) (names : List String) :
    names.eraseDups.filter p = (names.filter p).eraseDups := by
  induction names using List.reverseRecOn with
  | nil => simp
  | append_singleton rest n ih =>
    rw [eraseDups_concat, List.filter_append, List.filter_append, ih]
    by_cases hp : p n = true
    · rw [List.filter_cons_of_pos hp, List.filter_nil, eraseDups_concat]
      by_cases hn : n ∈ rest <;> simp [hn, hp]
    · rw [List.filter_cons_of_neg hp, List.filter_nil, List.append_nil]
      by_cases hn : n ∈ rest <;> simp [hn, hp]

/-- The names that are not known yet, in order, each once. -/
def fresh (known names : List String) : List String :=
  (names.filter fun n => n ∉ known).eraseDups

theorem mem_fresh {known names : List String} {n : String} :
    n ∈ fresh known names ↔ n ∈ names ∧ n ∉ known := by
  simp [fresh, List.mem_eraseDups]

private theorem nodup_fresh (known names : List String) : (fresh known names).Nodup :=
  nodup_eraseDups _

theorem fresh_congr {known known' : List String} (h : ∀ n, n ∈ known ↔ n ∈ known')
    (names : List String) : fresh known names = fresh known' names := by
  simp only [fresh, h]

private theorem fresh_cons_known {known : List String} {n : String} (h : n ∈ known)
    (rest : List String) : fresh known (n :: rest) = fresh known rest := by
  simp [fresh, h]

private theorem fresh_cons_new {known : List String} {n : String} (h : n ∉ known)
    (rest : List String) : fresh known (n :: rest) = n :: fresh (known ++ [n]) rest := by
  have hkeep : (n :: rest).filter (fun m => m ∉ known) =
      n :: rest.filter (fun m => m ∉ known) := by simp [h]
  rw [fresh, hkeep, List.eraseDups_cons, List.filter_filter]
  simp only [fresh, List.mem_append, List.mem_singleton, not_or, Bool.decide_and, decide_not]
  congr 2
  apply List.filter_congr
  intro m _
  by_cases hm : m = n <;> simp [hm]

theorem fresh_append (known xs ys : List String) :
    fresh known (xs ++ ys) = fresh known xs ++ fresh (known ++ xs) ys := by
  rw [fresh, List.filter_append, List.eraseDups_append, fresh, fresh, List.removeAll]
  congr 2
  rw [List.filter_filter]
  apply List.filter_congr
  intro n _
  by_cases hk : n ∈ known <;> by_cases hx : n ∈ xs <;> simp [hk, hx]

namespace Walk

private theorem enqueue_known {w : Walk} {n : String} (h : n ∈ w.closure.names ++ w.queued) :
    w.enqueue n = w := by
  rw [enqueue, if_pos]
  rw [Bool.or_eq_true, Closure.contains_iff, List.contains_iff_mem]
  exact List.mem_append.mp h

private theorem enqueue_new {w : Walk} {n : String} (h : n ∉ w.closure.names ++ w.queued) :
    w.enqueue n = ⟨w.closure, w.queued ++ [n], w.queue ++ [n]⟩ := by
  rw [enqueue, if_neg]
  rw [Bool.or_eq_true, Closure.contains_iff, List.contains_iff_mem]
  exact fun hn => h (List.mem_append.mpr hn)

private theorem foldl_enqueue (w : Walk) (names : List String) :
    names.foldl enqueue w =
      ⟨w.closure, w.queued ++ fresh (w.closure.names ++ w.queued) names,
        w.queue ++ fresh (w.closure.names ++ w.queued) names⟩ := by
  induction names generalizing w with
  | nil => simp [fresh]
  | cons n rest ih =>
    rw [List.foldl_cons]
    by_cases hn : n ∈ w.closure.names ++ w.queued
    · rw [enqueue_known hn, ih, fresh_cons_known hn]
    · rw [enqueue_new hn, ih, fresh_cons_new hn]
      simp only [List.append_assoc, List.cons_append, List.nil_append]

/-- The walk with one more file, whose unknown imports are queued. -/
def grow (w : Walk) (f : File) : Walk :=
  ⟨(w.closure.insert f).1, w.queued ++ fresh (w.closure.names ++ w.queued) f.dependencies,
    w.queue ++ fresh (w.closure.names ++ w.queued) f.dependencies⟩

theorem queued_grow (w : Walk) (f : File) :
    (w.grow f).queued = w.queued ++ fresh (w.closure.names ++ w.queued) f.dependencies := rfl

theorem queue_grow (w : Walk) (f : File) :
    (w.grow f).queue = w.queue ++ fresh (w.closure.names ++ w.queued) f.dependencies := rfl

theorem files_grow {w : Walk} {f : File} (h : f.nameText ∉ w.closure.names) :
    (w.grow f).closure.files = w.closure.files ++ [f] :=
  Closure.files_insert h

theorem names_grow {w : Walk} {f : File} (h : f.nameText ∉ w.closure.names) :
    (w.grow f).closure.names = w.closure.names ++ [f.nameText] :=
  Closure.names_insert_new h

theorem missing_grow (w : Walk) (f : File) : (w.grow f).closure.missing = w.closure.missing :=
  Closure.missing_insert _ _

theorem mem_queued_grow {w : Walk} {f : File} {name : String} :
    name ∈ (w.grow f).queued ↔
      name ∈ w.queued ∨ name ∈ f.dependencies ∧ name ∉ w.closure.names ++ w.queued := by
  rw [queued_grow, List.mem_append, mem_fresh]

theorem nodup_queued_grow {w : Walk} (h : w.queued.Nodup) (f : File) :
    (w.grow f).queued.Nodup := by
  rw [queued_grow, List.nodup_append]
  refine ⟨h, nodup_fresh _ _, ?_⟩
  intro name hname other hother heq
  have hnew : other ∉ w.closure.names ++ w.queued := (mem_fresh.mp hother).2
  exact hnew (List.mem_append_right _ (heq ▸ hname))

theorem takeInFile_cases {w w' : Walk} {f : File} (h : w.takeInFile f = .ok w') :
    (f.nameText ∈ w.closure.names ∧ w' = w) ∨
      (f.nameText ∉ w.closure.names ∧ w' = w.grow f) := by
  rw [takeInFile] at h
  split at h
  · cases h
  · split at h
    · rename_i hin
      exact Or.inl ⟨Closure.contains_iff.mp hin, (Except.ok.inj h).symm⟩
    · rename_i hout
      refine Or.inr ⟨fun hin => hout (Closure.contains_iff.mpr hin), ?_⟩
      rw [foldl_enqueue] at h
      exact (Except.ok.inj h).symm

theorem takeInFile_new {w : Walk} {f : File} (hname : f.nameText ≠ "")
    (hnew : f.nameText ∉ w.closure.names) : w.takeInFile f = .ok (w.grow f) := by
  have hfull : ¬f.nameText.isEmpty = true := by simpa using hname
  have hout : ¬w.closure.contains f.nameText = true := fun hin =>
    hnew (Closure.contains_iff.mp hin)
  rw [takeInFile, if_neg hfull, if_neg hout, foldl_enqueue]
  rfl

theorem takeInFile_known {w : Walk} {f : File} (hname : f.nameText ≠ "")
    (hin : f.nameText ∈ w.closure.names) : w.takeInFile f = .ok w := by
  have hfull : ¬f.nameText.isEmpty = true := by simpa using hname
  rw [takeInFile, if_neg hfull, if_pos (Closure.contains_iff.mpr hin)]

end Walk

end RpcGateway.Reflection
