import RpcGateway.Proofs.Outcome
import RpcGateway.Text.Numeral
/-!
# Reading numerals

A numeral is read exactly if it is made of decimal digits, behind a plus sign or not, and its value is
within the bound. What is read is this value, so zeros at the beginning are allowed and change nothing.
-/
namespace RpcGateway.Numeral

/-- A text that writes a number in decimal digits. -/
def Writes (cs : List Char) (n : Nat) : Prop :=
  ∃ digits, (cs = digits ∨ cs = '+' :: digits) ∧ digits ≠ [] ∧ (∀ c ∈ digits, c.isDigit = true) ∧
    Nat.ofDigitChars 10 digits 0 = n

private theorem digit?_eq (c : Char) :
    digit? c = if c.isDigit = true then some (c.toNat - '0'.toNat) else none := by
  have hrange : c.isDigit = true ↔ '0' ≤ c ∧ c ≤ '9' := by
    simp [Char.isDigit, Char.le_def]
  simp only [digit?, hrange]

private theorem le_ofDigitChars (cs : List Char) (value : Nat) : value ≤ Nat.ofDigitChars 10 cs value := by
  induction cs generalizing value with
  | nil => exact Nat.le_refl value
  | cons c rest ih =>
    rw [Nat.ofDigitChars_cons]
    have hrest := ih (10 * value + (c.toNat - '0'.toNat))
    omega

private theorem extend_ok_iff {bound value n : Nat} {overflow : Error} {cs : List Char}
    (hvalue : value ≤ bound) :
    extend bound overflow value cs = .ok n ↔
      (∀ c ∈ cs, c.isDigit = true) ∧ Nat.ofDigitChars 10 cs value = n ∧ n ≤ bound := by
  induction cs generalizing value with
  | nil =>
    constructor
    · intro h
      cases h
      exact ⟨List.forall_mem_nil _, rfl, hvalue⟩
    · rintro ⟨-, rfl, -⟩
      rfl
  | cons c rest ih =>
    rw [extend, List.forall_mem_cons, Nat.ofDigitChars_cons]
    cases hc : c.isDigit with
    | false =>
      simp [digit?_eq, hc]
    | true =>
      have hdigit : digit? c = some (c.toNat - '0'.toNat) := by simp [digit?_eq, hc]
      rw [hdigit]
      by_cases hnext : 10 * value + (c.toNat - '0'.toNat) ≤ bound
      · simp only [if_pos hnext, ih hnext, true_and]
      · -- The digits that follow do not make the value smaller.
        have hgrows := le_ofDigitChars rest (10 * value + (c.toNat - '0'.toNat))
        simp only [if_neg hnext, reduceCtorEq, true_and, false_iff]
        intro ⟨_, hn, hbound⟩
        omega

private theorem magnitude_ok_iff {bound n : Nat} {overflow : Error} {cs : List Char} :
    magnitude bound overflow cs = .ok n ↔
      cs ≠ [] ∧ (∀ c ∈ cs, c.isDigit = true) ∧ Nat.ofDigitChars 10 cs 0 = n ∧ n ≤ bound := by
  rw [magnitude]
  cases cs with
  | nil => simp
  | cons c rest =>
    have hextend := @extend_ok_iff bound 0 n overflow (c :: rest) (Nat.zero_le bound)
    simpa using hextend

theorem Writes.isNumeralChar {cs : List Char} {n : Nat} (h : Writes cs n) :
    ∀ c ∈ cs, c = '+' ∨ c.isDigit = true := by
  obtain ⟨digits, rfl | rfl, -, hdigits, -⟩ := h
  · exact fun c hc => .inr (hdigits c hc)
  · exact List.forall_mem_cons.mpr ⟨.inl rfl, fun c hc => .inr (hdigits c hc)⟩

private theorem writes_plus_iff {rest : List Char} {n : Nat} :
    Writes ('+' :: rest) n ↔
      rest ≠ [] ∧ (∀ c ∈ rest, c.isDigit = true) ∧ Nat.ofDigitChars 10 rest 0 = n := by
  constructor
  · rintro ⟨digits, rfl | hplus, hne, hdigits, hvalue⟩
    · have hdigit := hdigits '+' List.mem_cons_self
      cases hdigit
    · cases hplus
      exact ⟨hne, hdigits, hvalue⟩
  · intro h
    exact ⟨rest, .inr rfl, h⟩

private theorem writes_iff_of_ne {cs : List Char} {n : Nat} (h : ∀ rest, cs ≠ '+' :: rest) :
    Writes cs n ↔ cs ≠ [] ∧ (∀ c ∈ cs, c.isDigit = true) ∧ Nat.ofDigitChars 10 cs 0 = n := by
  constructor
  · rintro ⟨digits, rfl | hplus, hwritten⟩
    · exact hwritten
    · exact absurd hplus (h digits)
  · intro hwritten
    exact ⟨cs, .inl rfl, hwritten⟩

theorem readNat_ok_iff {bound n : Nat} {cs : List Char} :
    readNat bound cs = .ok n ↔ Writes cs n ∧ n ≤ bound := by
  rw [readNat.eq_def]
  split
  next => simp [writes_iff_of_ne]
  next rest => rw [magnitude_ok_iff, writes_plus_iff, and_assoc, and_assoc]
  next hplus => rw [magnitude_ok_iff, writes_iff_of_ne hplus, and_assoc, and_assoc]

theorem isDigit_of_mem_toString (n : Nat) : ∀ c ∈ (toString n).toList, c.isDigit = true := by
  rw [Nat.toString_eq_repr, Nat.toList_repr]
  intro c hc
  exact Nat.isDigit_of_mem_toDigits (by decide) (by decide) hc

theorem toList_toString_ne_nil (n : Nat) : (toString n).toList ≠ [] := by
  rw [Nat.toString_eq_repr, Nat.toList_repr]
  exact Nat.toDigits_ne_nil

theorem writes_toString (n : Nat) : Writes (toString n).toList n := by
  refine ⟨(toString n).toList, .inl rfl, toList_toString_ne_nil n, isDigit_of_mem_toString n, ?_⟩
  rw [Nat.toString_eq_repr, Nat.toList_repr]
  exact Nat.ofDigitChars_toDigits (by decide) (by decide)

end RpcGateway.Numeral
