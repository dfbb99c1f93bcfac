import RpcGateway.Text.Blank
/-!
# Trimming

What trimming leaves of a text as it is, and how it acts on a text that is written member by member.
-/
namespace RpcGateway.Blank

variable {α β : Type} {p : α → Bool} {q : β → Bool}

theorem trimBy_cons_of_pos {x : α} (h : p x = true) (xs : List α) :
    trimBy p (x :: xs) = trimBy p xs := by
  rw [trimBy, List.dropWhile_cons_of_pos h, trimBy]

/-- What stands around a text and is to be trimmed makes no difference. -/
theorem trimBy_surrounded {before after : List α} (hbefore : ∀ x ∈ before, p x = true)
    (hafter : ∀ x ∈ after, p x = true) (xs : List α) :
    trimBy p (before ++ xs ++ after) = trimBy p xs := by
  rw [trimBy, List.append_assoc, List.dropWhile_append_of_pos hbefore, List.dropWhile_append, trimBy]
  have hnone : (after ++ []).dropWhile p = [] := List.dropWhile_append_of_pos hafter
  rw [List.append_nil] at hnone
  cases hleft : xs.dropWhile p with
  | nil => rw [hnone]; rfl
  | cons x more =>
    have hback : ∀ x ∈ after.reverse, p x = true := fun x hx => hafter x (List.mem_reverse.mp hx)
    rw [List.isEmpty_cons, if_neg Bool.false_ne_true, List.reverse_append,
      List.dropWhile_append_of_pos hback]

theorem dropWhile_eq_self_iff {xs : List α} :
    xs.dropWhile p = xs ↔ ∀ x ∈ xs.head?, p x = false := by
  cases xs with
  | nil => simp
  | cons x more =>
    cases hx : p x with
    | true =>
      have hshorter : more.dropWhile p ≠ x :: more := by
        intro h
        have hlength := (List.dropWhile_suffix p (l := more)).length_le
        rw [h, List.length_cons] at hlength
        omega
      simp [hx, hshorter]
    | false => simp [hx]

/-- Trimming changes nothing exactly if nothing at either end is to be trimmed. -/
theorem trimBy_eq_self_iff {xs : List α} :
    trimBy p xs = xs ↔ (∀ x ∈ xs.head?, p x = false) ∧ ∀ x ∈ xs.getLast?, p x = false := by
  rw [← dropWhile_eq_self_iff, ← List.head?_reverse, ← dropWhile_eq_self_iff, trimBy]
  constructor
  · intro h
    -- Neither of the two steps can lengthen the text, so the first did not shorten it.
    have hfront : xs.dropWhile p = xs := by
      apply (List.dropWhile_suffix p).eq_of_length
      apply Nat.le_antisymm (List.dropWhile_suffix p).length_le
      calc xs.length = ((xs.dropWhile p).reverse.dropWhile p).reverse.length := by rw [h]
        _ = ((xs.dropWhile p).reverse.dropWhile p).length := List.length_reverse
        _ ≤ (xs.dropWhile p).reverse.length := (List.dropWhile_suffix p).length_le
        _ = (xs.dropWhile p).length := List.length_reverse
    rw [hfront] at h
    exact ⟨hfront, List.reverse_eq_iff.mp h⟩
  · rintro ⟨hfront, hback⟩
    rw [hfront, hback, List.reverse_reverse]

/-- Blanks are written as blanks, and everything else without any. -/
structure KeepsBlanks (p : α → Bool) (q : β → Bool) (write : α → List β) : Prop where
  blank : ∀ a, p a = true → ∀ b ∈ write a, q b = true
  ink : ∀ a, p a = false → write a ≠ [] ∧ ∀ b ∈ write a, q b = false

theorem KeepsBlanks.reverse {write : α → List β} (h : KeepsBlanks p q write) :
    KeepsBlanks p q (List.reverse ∘ write) where
  blank a ha b hb := h.blank a ha b (List.mem_reverse.mp hb)
  ink a ha := ⟨fun hnil => (h.ink a ha).1 (List.reverse_eq_nil_iff.mp hnil),
    fun b hb => (h.ink a ha).2 b (List.mem_reverse.mp hb)⟩

theorem KeepsBlanks.dropWhile {write : α → List β} (h : KeepsBlanks p q write) (xs : List α) :
    (xs.flatMap write).dropWhile q = (xs.dropWhile p).flatMap write := by
  induction xs with
  | nil => rfl
  | cons a more ih =>
    rw [List.flatMap_cons]
    cases ha : p a with
    | true =>
      rw [List.dropWhile_append_of_pos (h.blank a ha), ih, List.dropWhile_cons_of_pos ha]
    | false =>
      obtain ⟨hne, hink⟩ := h.ink a ha
      obtain ⟨b, tail, hwrite⟩ := List.exists_cons_of_ne_nil hne
      rw [List.dropWhile_cons_of_neg (by simp [ha]), List.flatMap_cons, hwrite, List.cons_append,
        List.dropWhile_cons_of_neg (by simp [hink b (by simp [hwrite])])]

theorem KeepsBlanks.trimBy {write : α → List β} (h : KeepsBlanks p q write) (xs : List α) :
    trimBy q (xs.flatMap write) = (trimBy p xs).flatMap write := by
  rw [Blank.trimBy, h.dropWhile, List.reverse_flatMap, h.reverse.dropWhile, Blank.trimBy,
    List.reverse_flatMap]
  simp only [Function.comp_def, List.reverse_reverse]

end RpcGateway.Blank
