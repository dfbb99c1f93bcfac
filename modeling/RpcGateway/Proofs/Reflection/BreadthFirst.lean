import Mathlib.Data.List.Perm.Subperm
import RpcGateway.Proofs.Reflection.Script
import RpcGateway.Proofs.Reflection.Walk
/-!
# Breadth-first order

The files of a script layer by layer: those of the services, then what these import, and so on, each name
where it comes up first. A walk that keeps no layers still produces this order; what it keeps is that the
names beyond the roots are the imports of all names in order, and this equation has one solution that
nothing can be left out of.
-/
namespace RpcGateway.Sample.Script

open Reflection
open Schema (File)

variable (script : Script)

/-- The imports of the file of a name. -/
def importsOf (name : String) : List String :=
  match script.file? name with
  | some f => f.dependencies
  | none => []

/-- The files that services are mapped to, in the order of the services, each once. -/
def roots : List String :=
  ((script.userServices.filterMap script.serviceFile?).map File.nameText).eraseDups

/-- The names in a list that are those of files. -/
def present (names : List String) : List String :=
  names.filter fun name => (script.file? name).isSome

/-- The files that a layer imports and that did not come up before. -/
def nextLayer (seen layer : List String) : List String :=
  fresh seen (script.present (layer.flatMap script.importsOf))

/-- A number of layers, one after the other. -/
def layers : (count : Nat) → (seen layer : List String) → List String
  | 0, _, _ => []
  | count + 1, seen, layer =>
    layer ++ layers count (seen ++ layer) (script.nextLayer (seen ++ layer) layer)

/-- The files that can be reached, layer by layer. There are not more layers than files. -/
def breadthFirst : List String :=
  script.layers (script.files.length + 1) [] script.roots

variable {script}

theorem mem_present {names : List String} {name : String} :
    name ∈ script.present names ↔ name ∈ names ∧ (script.file? name).isSome := by
  simp [present]

theorem present_append (xs ys : List String) :
    script.present (xs ++ ys) = script.present xs ++ script.present ys :=
  List.filter_append _ _

theorem filter_present (p : String → Bool) (names : List String) :
    (script.present names).filter p = script.present (names.filter p) := by
  rw [present, present, List.filter_filter, List.filter_filter]
  apply List.filter_congr
  intro name _
  exact Bool.and_comm _ _

theorem present_fresh (known names : List String) :
    script.present (fresh known names) = fresh known (script.present names) := by
  rw [fresh, fresh, present, filter_eraseDups, ← present, filter_present]

private theorem layers_nil (count : Nat) (seen : List String) : script.layers count seen [] = [] := by
  induction count generalizing seen with
  | zero => rfl
  | succ count ih =>
    have hnext : script.nextLayer (seen ++ []) [] = [] := by simp [nextLayer, present, fresh]
    rw [layers, hnext, ih]
    rfl

private theorem length_le_of_file? {names : List String} (hnd : names.Nodup)
    (h : ∀ name ∈ names, (script.file? name).isSome) : names.length ≤ script.files.length := by
  have hsub : names ⊆ script.files.map File.nameText := by
    intro name hname
    obtain ⟨f, hf⟩ := Option.isSome_iff_exists.mp (h name hname)
    obtain ⟨hmem, rfl⟩ := mem_of_file? hf
    exact List.mem_map_of_mem hmem
  simpa using (List.subperm_of_subset hnd hsub).length_le

private theorem append_nextLayer {first seen layer : List String}
    (h : seen ++ layer = first ++ fresh first (script.present (seen.flatMap script.importsOf))) :
    (seen ++ layer) ++ script.nextLayer (seen ++ layer) layer =
      first ++ fresh first (script.present ((seen ++ layer).flatMap script.importsOf)) := by
  have hknown : ∀ name, name ∈ seen ++ layer ↔
      name ∈ first ++ script.present (seen.flatMap script.importsOf) := by
    intro name
    rw [h, List.mem_append, List.mem_append, mem_fresh]
    by_cases hname : name ∈ first <;> simp [hname]
  rw [List.flatMap_append, present_append, fresh_append, ← List.append_assoc, ← h, nextLayer,
    fresh_congr hknown]

/-- The layers make up every list of names that consists of the roots and the imports of its own members in
order, if it leaves no room for names that only import each other. -/
private theorem append_layers (count : Nat) {first names : List String} (hnd : names.Nodup)
    (horder : names = first ++ fresh first (script.present (names.flatMap script.importsOf)))
    (hleast : ∀ closed : List String, first ⊆ closed →
      (∀ name ∈ script.present (closed.flatMap script.importsOf), name ∈ closed) → names ⊆ closed)
    {seen layer : List String} (hstart : seen ++ layer <+: names)
    (h : seen ++ layer = first ++ fresh first (script.present (seen.flatMap script.importsOf)))
    (hcount : names.length < count + seen.length) :
    seen ++ script.layers count seen layer = names := by
  induction count generalizing seen layer with
  | zero =>
    have hle := hstart.length_le
    simp only [List.length_append] at hle
    omega
  | succ count ih =>
    cases hlayer : layer with
    | nil =>
      subst hlayer
      rw [List.append_nil] at hstart h
      have hsub : names ⊆ seen := by
        apply hleast
        · intro name hname
          rw [h]
          exact List.mem_append_left _ hname
        · intro name hname
          rw [h, List.mem_append, mem_fresh]
          by_cases hfirst : name ∈ first
          · exact Or.inl hfirst
          · exact Or.inr ⟨hname, hfirst⟩
      have hle : names.length ≤ seen.length := (List.subperm_of_subset hnd hsub).length_le
      rw [layers_nil, List.append_nil]
      exact hstart.eq_of_length_le hle
    | cons name rest =>
      rw [← hlayer, layers, ← List.append_assoc]
      obtain ⟨tail, htail⟩ := hstart
      have hnext := append_nextLayer h
      apply ih
      · refine ⟨fresh (first ++ script.present ((seen ++ layer).flatMap script.importsOf))
          (script.present (tail.flatMap script.importsOf)), ?_⟩
        rw [hnext, List.append_assoc, ← fresh_append, ← present_append, ← List.flatMap_append,
          htail]
        exact horder.symm
      · exact hnext
      · simp only [List.length_append, hlayer, List.length_cons] at hcount ⊢
        omega

theorem breadthFirst_eq {names : List String} (hnd : names.Nodup)
    (hfiles : ∀ name ∈ names, (script.file? name).isSome)
    (horder : names = script.roots ++
      fresh script.roots (script.present (names.flatMap script.importsOf)))
    (hleast : ∀ closed : List String, script.roots ⊆ closed →
      (∀ name ∈ script.present (closed.flatMap script.importsOf), name ∈ closed) →
        names ⊆ closed) :
    names = script.breadthFirst := by
  have hlen := length_le_of_file? hnd hfiles
  have hstart : [] ++ script.roots <+: names := ⟨_, horder.symm⟩
  have h := append_layers (script.files.length + 1) hnd horder hleast hstart
    (by simp [present, fresh]) (by simp; omega)
  rw [← h]
  rfl

end RpcGateway.Sample.Script
