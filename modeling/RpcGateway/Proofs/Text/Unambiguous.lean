import RpcGateway.Text.Cut
/-!
# Unambiguous writing

A way of writing things one after the other is unambiguous if the first thing and what follows it are known
from what was written. This is kept when things are written in a row, as long as what comes after the row
cannot be taken for one more of them.
-/
namespace RpcGateway.Cut

variable {α β : Type}

/-- What is written for a thing with a property can be told from what follows it. -/
def CutsOff (P : α → Prop) (write : α → List β) : Prop :=
  ∀ ⦃a b : α⦄ ⦃s t : List β⦄, P a → P b → write a ++ s = write b ++ t → a = b ∧ s = t

variable {P : α → Prop} {write : α → List β}

/-- Things in a row are told apart, and the row from what follows it, if that does not begin like one of
them. -/
theorem flatMap_append_inj {xs ys : List α} {s t : List β} (Ends : List β → Prop)
    (h : ∀ x ∈ xs, ∀ y ∈ ys, ∀ u v, write x ++ u = write y ++ v → x = y ∧ u = v)
    (hxs : ∀ x ∈ xs, ∀ u, ¬ Ends (write x ++ u)) (hys : ∀ y ∈ ys, ∀ u, ¬ Ends (write y ++ u))
    (hs : Ends s) (ht : Ends t) (heq : xs.flatMap write ++ s = ys.flatMap write ++ t) :
    xs = ys ∧ s = t := by
  induction xs generalizing ys with
  | nil =>
    cases ys with
    | nil => exact ⟨rfl, heq⟩
    | cons y ys =>
      rw [List.flatMap_nil, List.nil_append, List.flatMap_cons, List.append_assoc] at heq
      exact absurd (heq ▸ hs) (hys y List.mem_cons_self _)
  | cons x xs ih =>
    cases ys with
    | nil =>
      rw [List.flatMap_nil, List.nil_append, List.flatMap_cons, List.append_assoc] at heq
      exact absurd (heq ▸ ht) (hxs x List.mem_cons_self _)
    | cons y ys =>
      rw [List.forall_mem_cons] at hxs hys
      rw [List.flatMap_cons, List.flatMap_cons, List.append_assoc, List.append_assoc] at heq
      obtain ⟨rfl, hrest⟩ := h x List.mem_cons_self y List.mem_cons_self _ _ heq
      have htails : ∀ z ∈ xs, ∀ w ∈ ys, ∀ u v, write z ++ u = write w ++ v → z = w ∧ u = v :=
        fun z hz w hw => h z (List.mem_cons_of_mem x hz) w (List.mem_cons_of_mem x hw)
      obtain ⟨rfl, hend⟩ := ih htails hxs.2 hys.2 hrest
      exact ⟨rfl, hend⟩

theorem CutsOff.flatMap (h : CutsOff P write) (Ends : List β → Prop)
    (hends : ∀ a s, P a → ¬ Ends (write a ++ s)) {xs ys : List α} {s t : List β}
    (hxs : ∀ x ∈ xs, P x) (hys : ∀ y ∈ ys, P y) (hs : Ends s) (ht : Ends t)
    (heq : xs.flatMap write ++ s = ys.flatMap write ++ t) : xs = ys ∧ s = t :=
  flatMap_append_inj Ends (fun x hx y hy _ _ => h (hxs x hx) (hys y hy))
    (fun x hx u => hends x u (hxs x hx)) (fun y hy u => hends y u (hys y hy)) hs ht heq

theorem CutsOff.flatMap_injective (h : CutsOff P write) (hne : ∀ a, P a → write a ≠ [])
    {xs ys : List α} (hxs : ∀ x ∈ xs, P x) (hys : ∀ y ∈ ys, P y)
    (heq : xs.flatMap write = ys.flatMap write) : xs = ys := by
  have hends : ∀ a s, P a → ¬ write a ++ s = [] := by
    intro a s ha hnil
    exact hne a ha (List.append_eq_nil_iff.mp hnil).1
  exact (h.flatMap (· = []) hends hxs hys rfl rfl (by rw [heq])).1

theorem map_injective {f : α → β} (h : ∀ a b, P a → P b → f a = f b → a = b) {xs ys : List α}
    (hxs : ∀ x ∈ xs, P x) (hys : ∀ y ∈ ys, P y) (heq : xs.map f = ys.map f) : xs = ys := by
  have hcuts : CutsOff P fun a => [f a] := by
    intro a b s t ha hb hab
    rw [List.singleton_append, List.singleton_append, List.cons.injEq] at hab
    exact ⟨h a b ha hb hab.1, hab.2⟩
  apply hcuts.flatMap_injective (fun _ _ => List.cons_ne_nil _ _) hxs hys
  rw [← List.map_eq_flatMap, ← List.map_eq_flatMap, heq]

/-- Two texts that reach a mark for the first time are the same up to it and from it on. -/
theorem at_mark {mark : β} {xs ys s t : List β} (hx : mark ∉ xs) (hy : mark ∉ ys)
    (heq : xs ++ mark :: s = ys ++ mark :: t) : xs = ys ∧ s = t := by
  induction xs generalizing ys with
  | nil =>
    cases ys with
    | nil => exact ⟨rfl, (List.cons.inj heq).2⟩
    | cons y ys =>
      have hmark := (List.cons.inj heq).1
      exact absurd List.mem_cons_self (hmark ▸ hy)
  | cons x xs ih =>
    cases ys with
    | nil =>
      have hmark := (List.cons.inj heq).1
      exact absurd List.mem_cons_self (hmark ▸ hx)
    | cons y ys =>
      obtain ⟨rfl, hrest⟩ := List.cons.inj heq
      obtain ⟨rfl, hend⟩ := ih (fun h => hx (List.mem_cons_of_mem _ h))
        (fun h => hy (List.mem_cons_of_mem _ h)) hrest
      exact ⟨rfl, hend⟩

/-- Words, each with the mark after it, are told apart if the mark stands in none of them. -/
theorem cutsOff_marked (mark : β) : CutsOff (fun word => mark ∉ word) fun word => word ++ [mark] := by
  intro xs ys s t hx hy heq
  rw [List.append_assoc, List.append_assoc] at heq
  exact at_mark hx hy heq

end RpcGateway.Cut
