import RpcGateway.Text.Utf8
/-!
# Percent escapes

A byte that may not stand for itself is written as a percent sign and two hexadecimal digits. Decoding
leaves a percent sign that two digits do not follow as it is.
-/
namespace RpcGateway.Percent

/-- The upper-case hexadecimal digit of a value below 16. -/
def hexDigit (n : Nat) : UInt8 :=
  UInt8.ofNat (if n < 10 then 0x30 + n else 0x41 + (n - 10))

/-- The value of a hexadecimal digit of either case. -/
def hexValue? (b : UInt8) : Option Nat :=
  let n := b.toNat
  if 0x30 ≤ n ∧ n ≤ 0x39 then some (n - 0x30)
  else if 0x41 ≤ n ∧ n ≤ 0x46 then some (n - 0x41 + 10)
  else if 0x61 ≤ n ∧ n ≤ 0x66 then some (n - 0x61 + 10)
  else none

/-- A control byte, the percent sign, or a byte outside ASCII: what a status message escapes. -/
def isEscaped (b : UInt8) : Bool :=
  b < 0x20 || b == 0x25 || 0x7F ≤ b

def encode : Bytes → Bytes
  | [] => []
  | b :: rest =>
    if isEscaped b then
      0x25 :: hexDigit (b.toNat / 16) :: hexDigit (b.toNat % 16) :: encode rest
    else b :: encode rest

def escaped? (high low : UInt8) : Option UInt8 := do
  return UInt8.ofNat (16 * (← hexValue? high) + (← hexValue? low))

private theorem hexValue?_hexDigit {n : Nat} (h : n < 16) : hexValue? (hexDigit n) = some n := by
  have checked : ∀ n < 16, hexValue? (hexDigit n) = some n := by decide
  exact checked n h

private theorem escaped?_hexDigit (b : UInt8) :
    escaped? (hexDigit (b.toNat / 16)) (hexDigit (b.toNat % 16)) = some b := by
  have high : b.toNat / 16 < 16 := by
    have := b.toNat_lt
    omega
  have low : b.toNat % 16 < 16 := Nat.mod_lt _ (by decide)
  have whole : 16 * (b.toNat / 16) + b.toNat % 16 = b.toNat := Nat.div_add_mod _ _
  rw [escaped?, hexValue?_hexDigit high, hexValue?_hexDigit low]
  show some (UInt8.ofNat (16 * (b.toNat / 16) + b.toNat % 16)) = some b
  rw [whole, UInt8.ofNat_toNat]

def decode : Bytes → Bytes
  | 0x25 :: high :: low :: rest =>
    match escaped? high low with
    | some b => b :: decode rest
    | none => 0x25 :: decode (high :: low :: rest)
  | b :: rest => b :: decode rest
  | [] => []

private theorem decode_cons_of_ne {b : UInt8} (h : b ≠ 0x25) (rest : Bytes) :
    decode (b :: rest) = b :: decode rest := by
  match rest with
  | [] => simp [decode]
  | [_] => simp [decode]
  | _ :: _ :: _ =>
    rw [decode]
    intro _ _ _ eq
    exact absurd eq h

theorem decode_encode (bs : Bytes) : decode (encode bs) = bs := by
  induction bs with
  | nil => rfl
  | cons b rest ih =>
    rw [encode]
    by_cases h : isEscaped b = true
    · rw [if_pos h, decode, escaped?_hexDigit, ih]
    · have plain : b ≠ 0x25 := by
        intro eq
        exact h (by subst eq; decide)
      rw [if_neg h, decode_cons_of_ne plain, ih]

end RpcGateway.Percent
