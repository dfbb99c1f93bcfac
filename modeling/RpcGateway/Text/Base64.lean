import RpcGateway.Text.Utf8
/-!
# Base64

The standard alphabet with required canonical padding. Three bytes are written as four symbols; a rest of
one or two bytes is padded. Reading takes groups of four symbols from the left, so that the error
reported is the first one in reading order.
-/
namespace RpcGateway.Base64

inductive Error where
  | symbol (byte : UInt8) (offset : Nat)
  | length (offset : Nat)
  | padding
  | lastSymbol (byte : UInt8) (offset : Nat)
  deriving DecidableEq, Repr

def Error.message : Error → String
  | .symbol byte offset => s!"Invalid symbol {byte.toNat}, offset {offset}."
  | .length offset => s!"Invalid input length: {offset}"
  | .padding => "Invalid padding"
  | .lastSymbol byte offset => s!"Invalid last symbol {byte.toNat}, offset {offset}."

def pad : UInt8 := 0x3D

def symbol (n : Nat) : UInt8 :=
  if n < 26 then UInt8.ofNat (0x41 + n)
  else if n < 52 then UInt8.ofNat (0x61 + (n - 26))
  else if n < 62 then UInt8.ofNat (0x30 + (n - 52))
  else if n = 62 then 0x2B
  else 0x2F

def value? (b : UInt8) : Option Nat :=
  let n := b.toNat
  if 0x41 ≤ n ∧ n ≤ 0x5A then some (n - 0x41)
  else if 0x61 ≤ n ∧ n ≤ 0x7A then some (n - 0x61 + 26)
  else if 0x30 ≤ n ∧ n ≤ 0x39 then some (n - 0x30 + 52)
  else if n = 0x2B then some 62
  else if n = 0x2F then some 63
  else none

def encode : Bytes → Bytes
  | a :: b :: c :: rest =>
    symbol (a.toNat / 4) :: symbol (a.toNat % 4 * 16 + b.toNat / 16) ::
      symbol (b.toNat % 16 * 4 + c.toNat / 64) :: symbol (c.toNat % 64) :: encode rest
  | [a, b] =>
    [symbol (a.toNat / 4), symbol (a.toNat % 4 * 16 + b.toNat / 16), symbol (b.toNat % 16 * 4), pad]
  | [a] => [symbol (a.toNat / 4), symbol (a.toNat % 4 * 16), pad, pad]
  | [] => []

def read (offset : Nat) (b : UInt8) : Except Error Nat :=
  match value? b with
  | some n => .ok n
  | none => .error (.symbol b offset)

def firstByte (p q : Nat) : UInt8 := UInt8.ofNat (p * 4 + q / 16)

def secondByte (q r : Nat) : UInt8 := UInt8.ofNat (q % 16 * 16 + r / 4)

def thirdByte (r s : Nat) : UInt8 := UInt8.ofNat (r % 4 * 64 + s)

def readGroup (offset : Nat) (a b c d : UInt8) : Except Error Bytes := do
  let p ← read offset a
  let q ← read (offset + 1) b
  let r ← read (offset + 2) c
  let s ← read (offset + 3) d
  return [firstByte p q, secondByte q r, thirdByte r s]

/-- The values of the symbols of the last group, and how many padding bytes follow them. Padding is
refused in the first two places and between symbols. -/
def readLast (offset : Nat) : (place padding : Nat) → Bytes → Except Error (List Nat × Nat)
  | _, padding, [] => .ok ([], padding)
  | place, padding, b :: rest =>
    if b = pad then
      if place < 2 then .error (.symbol pad (offset + place))
      else readLast offset (place + 1) (padding + 1) rest
    else if padding ≠ 0 then .error (.symbol pad (offset + place - padding))
    else do
      let n ← read (offset + place) b
      let (ns, padding) ← readLast offset (place + 1) 0 rest
      return (n :: ns, padding)

/-- Reads the last group, of at most four bytes. -/
def readFinal (offset : Nat) (group : Bytes) : Except Error Bytes := do
  let (values, padding) ← readLast offset 0 0 group
  match values with
  | [] => if group.isEmpty then return [] else throw (.length offset)
  | [_] => throw (.length (offset + 1))
  | [p, q] =>
    if padding ≠ 2 then throw .padding
    if q % 16 ≠ 0 then throw (.lastSymbol (symbol q) (offset + 1))
    return [firstByte p q]
  | [p, q, r] =>
    if padding ≠ 1 then throw .padding
    if r % 4 ≠ 0 then throw (.lastSymbol (symbol r) (offset + 2))
    return [firstByte p q, secondByte q r]
  | p :: q :: r :: s :: _ => return [firstByte p q, secondByte q r, thirdByte r s]

def readFrom (offset : Nat) : Bytes → Except Error Bytes
  | a :: b :: c :: d :: e :: rest => do
    let group ← readGroup offset a b c d
    return group ++ (← readFrom (offset + 4) (e :: rest))
  | group => readFinal offset group

/-- Whether a byte that stands alone after the last full group is neither a symbol nor padding. -/
def strayLast? (bs : Bytes) : Option UInt8 := do
  let b ← bs.getLast?
  if bs.length % 4 = 1 ∧ b ≠ pad ∧ (value? b).isNone then some b else none

/-- Reads padded Base64. A stray byte at the very end is reported before all else. -/
def decode (bs : Bytes) : Except Error Bytes :=
  match strayLast? bs with
  | some b => .error (.symbol b (bs.length - 1))
  | none => readFrom 0 bs

end RpcGateway.Base64
