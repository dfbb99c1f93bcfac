import RpcGateway.Text.Base64
/-!
# Reading Base64 back

The written form of bytes is read as these bytes. The reader tells the last group of symbols from those
that more symbols follow, so the induction has to know whether anything comes after a group.
-/
namespace RpcGateway.Base64

private theorem value?_symbol {n : Nat} (h : n < 64) : value? (symbol n) = some n := by
  have checked : ∀ n < 64, value? (symbol n) = some n := by decide
  exact checked n h

private theorem symbol_ne_pad {n : Nat} (h : n < 64) : symbol n ≠ pad := by
  have checked : ∀ n < 64, symbol n ≠ pad := by decide
  exact checked n h

private theorem read_symbol {n : Nat} (h : n < 64) (offset : Nat) : read offset (symbol n) = .ok n := by
  rw [read, value?_symbol h]

private theorem ofNat_eq_of_toNat {n : Nat} {b : UInt8} (h : n = b.toNat) : UInt8.ofNat n = b := by
  rw [h, UInt8.ofNat_toNat]

theorem group_lt (a b c : UInt8) :
    a.toNat / 4 < 64 ∧ a.toNat % 4 * 16 + b.toNat / 16 < 64 ∧
      b.toNat % 16 * 4 + c.toNat / 64 < 64 ∧ c.toNat % 64 < 64 := by
  have ha := a.toNat_lt
  have hb := b.toNat_lt
  have hc := c.toNat_lt
  omega

private theorem firstByte_written (a b : UInt8) :
    firstByte (a.toNat / 4) (a.toNat % 4 * 16 + b.toNat / 16) = a := by
  have hb := b.toNat_lt
  exact ofNat_eq_of_toNat (by omega)

private theorem secondByte_written (a b c : UInt8) :
    secondByte (a.toNat % 4 * 16 + b.toNat / 16) (b.toNat % 16 * 4 + c.toNat / 64) = b := by
  have hb := b.toNat_lt
  have hc := c.toNat_lt
  exact ofNat_eq_of_toNat (by omega)

private theorem thirdByte_written (b c : UInt8) :
    thirdByte (b.toNat % 16 * 4 + c.toNat / 64) (c.toNat % 64) = c := by
  have hc := c.toNat_lt
  exact ofNat_eq_of_toNat (by omega)

private theorem readGroup_written (offset : Nat) (a b c : UInt8) :
    readGroup offset (symbol (a.toNat / 4)) (symbol (a.toNat % 4 * 16 + b.toNat / 16))
      (symbol (b.toNat % 16 * 4 + c.toNat / 64)) (symbol (c.toNat % 64)) = .ok [a, b, c] := by
  obtain ⟨h₁, h₂, h₃, h₄⟩ := group_lt a b c
  rw [readGroup, read_symbol h₁, read_symbol h₂, read_symbol h₃, read_symbol h₄]
  show Except.ok [_, _, _] = _
  rw [firstByte_written, secondByte_written, thirdByte_written]

private theorem readLast_symbol {n : Nat} (h : n < 64) (offset place : Nat) (rest : Bytes) :
    readLast offset place 0 (symbol n :: rest) =
      (readLast offset (place + 1) 0 rest).map fun (ns, padding) => (n :: ns, padding) := by
  rw [readLast, if_neg (symbol_ne_pad h), if_neg (by simp), read_symbol h]
  cases readLast offset (place + 1) 0 rest <;> rfl

private theorem readFinal_three (offset : Nat) (a b c : UInt8) :
    readFinal offset (encode [a, b, c]) = .ok [a, b, c] := by
  obtain ⟨h₁, h₂, h₃, h₄⟩ := group_lt a b c
  rw [readFinal, encode, encode, readLast_symbol h₁, readLast_symbol h₂, readLast_symbol h₃,
    readLast_symbol h₄]
  show Except.ok [_, _, _] = _
  rw [firstByte_written, secondByte_written, thirdByte_written]

private theorem readFinal_two (offset : Nat) (a b : UInt8) :
    readFinal offset (encode [a, b]) = .ok [a, b] := by
  obtain ⟨h₁, h₂, h₃, -⟩ := group_lt a b 0
  have hsecond := secondByte_written a b 0
  simp only [UInt8.toNat_zero, Nat.zero_div, Nat.add_zero] at h₃ hsecond
  have hcanonical : b.toNat % 16 * 4 % 4 = 0 := by omega
  rw [readFinal, encode, readLast_symbol h₁, readLast_symbol h₂, readLast_symbol h₃]
  show (if b.toNat % 16 * 4 % 4 ≠ 0 then _ else Except.ok [_, _]) = _
  rw [if_neg (by simp [hcanonical]), firstByte_written, hsecond]

private theorem readFinal_one (offset : Nat) (a : UInt8) : readFinal offset (encode [a]) = .ok [a] := by
  obtain ⟨h₁, h₂, -, -⟩ := group_lt a 0 0
  have hfirst := firstByte_written a 0
  simp only [UInt8.toNat_zero, Nat.zero_div, Nat.add_zero] at h₂ hfirst
  have hcanonical : a.toNat % 4 * 16 % 16 = 0 := by omega
  rw [readFinal, encode, readLast_symbol h₁, readLast_symbol h₂]
  show (if a.toNat % 4 * 16 % 16 ≠ 0 then _ else Except.ok [_]) = _
  rw [if_neg (by simp [hcanonical]), hfirst]

private theorem encode_ne_nil {bs : Bytes} (h : bs ≠ []) : encode bs ≠ [] := by
  match bs with
  | [] => exact absurd rfl h
  | [_] => simp [encode]
  | [_, _] => simp [encode]
  | _ :: _ :: _ :: _ => simp [encode]

private theorem readFrom_encode (offset : Nat) (bs : Bytes) : readFrom offset (encode bs) = .ok bs := by
  induction bs using encode.induct generalizing offset with
  | case1 a b c rest ih =>
    by_cases hrest : rest = []
    · subst hrest
      exact readFinal_three offset a b c
    · obtain ⟨e, more, hmore⟩ := List.exists_cons_of_ne_nil (encode_ne_nil hrest)
      have hread : readFrom (offset + 4) (e :: more) = .ok rest := hmore ▸ ih (offset + 4)
      rw [encode, hmore, readFrom, readGroup_written, hread]
      rfl
  | case2 a b => exact readFinal_two offset a b
  | case3 a => exact readFinal_one offset a
  | case4 => rfl

theorem length_encode_mod (bs : Bytes) : (encode bs).length % 4 = 0 := by
  induction bs using encode.induct with
  | case1 a b c rest ih =>
    rw [encode]
    simp only [List.length_cons]
    omega
  | case2 a b => simp [encode]
  | case3 a => simp [encode]
  | case4 => rfl

private theorem strayLast?_encode (bs : Bytes) : strayLast? (encode bs) = none := by
  rw [strayLast?]
  cases (encode bs).getLast? with
  | none => rfl
  | some b =>
    show (if (encode bs).length % 4 = 1 ∧ _ then _ else _) = _
    rw [if_neg (by simp [length_encode_mod])]

theorem decode_encode (bs : Bytes) : decode (encode bs) = .ok bs := by
  rw [decode, strayLast?_encode]
  exact readFrom_encode 0 bs

end RpcGateway.Base64
