import RpcGateway.Proofs.Idl.Printable
import RpcGateway.Proofs.Text.Unambiguous
/-!
# Words and numbers

What the names and the numbers of declarations are made of, and sentences: words with blanks between them.
A sentence tells its words if no blank stands in them.
-/
namespace RpcGateway.Idl

open Cut (cutsOff_marked)

private theorem isNameChar_of_isFirstChar {c : Char} (h : isFirstChar c = true) : isNameChar c = true := by
  simp only [isFirstChar, isNameChar, Char.isAlphanum, Bool.or_eq_true] at h ⊢
  rcases h with h | h
  · exact Or.inl (Or.inl h)
  · exact Or.inr h

private theorem isNameChar_of_mem {cs : List Char} (h : isIdentifier cs = true) {c : Char} (hc : c ∈ cs) :
    isNameChar c = true := by
  cases cs with
  | nil => cases hc
  | cons first rest =>
    rw [isIdentifier, Bool.and_eq_true] at h
    rcases List.mem_cons.mp hc with rfl | hrest
    · exact isNameChar_of_isFirstChar h.1
    · exact List.all_eq_true.mp h.2 c hrest

private theorem isIdentifier_ne_nil {cs : List Char} (h : isIdentifier cs = true) : cs ≠ [] := by
  rintro rfl
  cases h

theorem notMem_of_isIdentifier {cs : List Char} (h : isIdentifier cs = true) {c : Char}
    (hc : isNameChar c = false) : c ∉ cs := by
  intro hmem
  rw [isNameChar_of_mem h hmem] at hc
  cases hc

private theorem isDotted_ne_nil {cs : List Char} (h : isDotted cs = true) : cs ≠ [] := by
  rintro rfl
  cases h

private theorem notMem_of_notMem_parts {mark c : Char} (hmark : c ≠ mark) {cs : List Char}
    (h : ∀ part ∈ cs.splitOn mark, c ∉ part) : c ∉ cs := by
  induction cs with
  | nil => exact List.not_mem_nil
  | cons x rest ih =>
    rw [List.splitOn_cons_eq_if_modifyHead] at h
    by_cases hx : x = mark
    · rw [if_pos (by simp [hx])] at h
      have hrest := ih fun part hpart => h part (List.mem_cons_of_mem _ hpart)
      simp [hx, hmark, hrest]
    · rw [if_neg (by simp [hx])] at h
      obtain ⟨first, parts, hparts⟩ := List.exists_cons_of_ne_nil (List.splitOn_ne_nil mark rest)
      rw [hparts, List.modifyHead_cons, List.forall_mem_cons, List.mem_cons, not_or] at h
      have hrest : c ∉ rest := by
        apply ih
        rw [hparts, List.forall_mem_cons]
        exact ⟨h.1.2, h.2⟩
      simp [h.1.1, hrest]

/-- A dot is the only character in a dotted name that is not a name's. -/
theorem notMem_of_isDotted {cs : List Char} (h : isDotted cs = true) {c : Char}
    (hc : isNameChar c = false) (hdot : c ≠ '.') : c ∉ cs := by
  apply notMem_of_notMem_parts hdot
  intro part hpart
  exact notMem_of_isIdentifier (List.all_eq_true.mp h part hpart) hc

private theorem isDigit_or_minus_of_mem {n : Int} {c : Char} (h : c ∈ (toString n).toList) :
    c.isDigit = true ∨ c = '-' := by
  rw [Int.toString_eq_repr, Int.repr_eq_if] at h
  split at h
  · rw [Nat.toList_repr] at h
    exact Or.inl (Nat.isDigit_of_mem_toDigits (by decide) (by decide) h)
  · rw [String.toList_append, List.mem_append, Nat.toList_repr] at h
    rcases h with h | h
    · exact Or.inr (by simpa using h)
    · exact Or.inl (Nat.isDigit_of_mem_toDigits (by decide) (by decide) h)

private theorem notMem_number {n : Int} {c : Char} (hdigit : c.isDigit = false) (hminus : c ≠ '-') :
    c ∉ (toString n).toList := by
  intro hmem
  rcases isDigit_or_minus_of_mem hmem with h | h
  · rw [hdigit] at h
    cases h
  · exact hminus h

private theorem toDigits_injective {m n : Nat} (h : Nat.toDigits 10 m = Nat.toDigits 10 n) : m = n := by
  rw [← Nat.ofDigitChars_ten_toDigits (n := m), h, Nat.ofDigitChars_ten_toDigits]

theorem number_injective {m n : Int} (h : (toString m).toList = (toString n).toList) : m = n := by
  have hminus : ∀ k : Nat, '-' ∉ Nat.toDigits 10 k := by
    intro k hmem
    have hdigit := Nat.isDigit_of_mem_toDigits (by decide) (by decide) hmem
    cases hdigit
  rw [Int.toString_eq_repr, Int.toString_eq_repr, Int.repr_eq_if, Int.repr_eq_if] at h
  split at h <;> split at h <;>
    simp only [String.toList_append, Nat.toList_repr, List.append_cancel_left_eq] at h
  · have := toDigits_injective h
    omega
  · exact absurd (h ▸ List.mem_append_left _ (by decide)) (hminus _)
  · exact absurd (h ▸ List.mem_append_left _ (by decide)) (hminus _)
  · have := toDigits_injective h
    omega

structure IsWord (word : List Char) : Prop where
  ne_nil : word ≠ []
  noBlank : ' ' ∉ word
  noBreak : '\n' ∉ word

theorem isWord_of_isIdentifier {cs : List Char} (h : isIdentifier cs = true) : IsWord cs :=
  ⟨isIdentifier_ne_nil h, notMem_of_isIdentifier h (by decide),
    notMem_of_isIdentifier h (by decide)⟩

theorem isWord_of_isDotted {cs : List Char} (h : isDotted cs = true) : IsWord cs :=
  ⟨isDotted_ne_nil h, notMem_of_isDotted h (by decide) (by decide),
    notMem_of_isDotted h (by decide) (by decide)⟩

theorem IsWord.append {first last : List Char} (hfirst : IsWord first) (hlast : IsWord last) :
    IsWord (first ++ last) :=
  ⟨by simp [hfirst.ne_nil], by simp [hfirst.noBlank, hlast.noBlank],
    by simp [hfirst.noBreak, hlast.noBreak]⟩

theorem isWord_number (n : Int) : IsWord ((toString n).toList ++ [';']) := by
  refine ⟨by simp, ?_, ?_⟩
  · rw [List.mem_append, not_or]
    exact ⟨notMem_number (by decide) (by decide), by decide⟩
  · rw [List.mem_append, not_or]
    exact ⟨notMem_number (by decide) (by decide), by decide⟩

/-- Words with a blank after each, and what comes last. -/
def sentence (words : List (List Char)) (last : List Char) : List Char :=
  words.flatMap (· ++ [' ']) ++ last

theorem sentence_inj {words others : List (List Char)} {last end' : List Char}
    (hwords : ∀ w ∈ words, IsWord w) (hothers : ∀ w ∈ others, IsWord w) (hlast : IsWord last)
    (hend : IsWord end') (h : sentence words last = sentence others end') :
    words = others ∧ last = end' := by
  have hmore : ∀ word s, ' ' ∉ word → ¬ ' ' ∉ (word ++ [' ']) ++ s := by
    intro word s _ hfree
    exact hfree (by simp)
  exact (cutsOff_marked ' ').flatMap (' ' ∉ ·) hmore (fun w hw => (hwords w hw).noBlank)
    (fun w hw => (hothers w hw).noBlank) hlast.noBlank hend.noBlank h

end RpcGateway.Idl
