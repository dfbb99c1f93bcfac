import RpcGateway.Wire
/-!
# Reading wire values

Readers take a value from the front of the bytes and give back what is left, which is shorter. Fields that
nobody knows are skipped, with all that is nested in them.
-/
namespace RpcGateway.Wire

inductive Reason where
  | varint
  | keyValue (key : Nat)
  | layoutCode (code : Nat)
  | zeroNumber
  | layout (actual expected : Layout)
  | underflow
  | lengthExceeded
  | endGroup
  | recursionLimit
  | notText
  deriving DecidableEq, Repr

def Reason.message : Reason → String
  | .varint => "invalid varint"
  | .keyValue key => s!"invalid key value: {key}"
  | .layoutCode code => s!"invalid wire type value: {code}"
  | .zeroNumber => "invalid tag value: 0"
  | .layout actual expected => s!"invalid wire type: {actual.name} (expected {expected.name})"
  | .underflow => "buffer underflow"
  | .lengthExceeded => "delimited length exceeded"
  | .endGroup => "unexpected end group tag"
  | .recursionLimit => "recursion limit reached"
  | .notText => "invalid string value: data is not UTF-8 encoded"

/-- A reason with the fields it came up in, the innermost first. -/
structure ReadError where
  path : List (String × String)
  reason : Reason
  deriving DecidableEq, Repr

namespace ReadError

def bare (reason : Reason) : ReadError := ⟨[], reason⟩

def message (e : ReadError) : String :=
  let path := e.path.map fun (message, field) => s!"{message}.{field}: "
  "failed to decode Protobuf message: " ++ String.join path ++ e.reason.message

end ReadError

/-- What is left after something was read from the front. -/
abbrev Shorter (bs : Bytes) := { rest : Bytes // rest.length < bs.length }

/-- What is left after nothing or something was read from the front. -/
abbrev Within (bs : Bytes) := { rest : Bytes // rest.length ≤ bs.length }

/-- Something read from the front, for which nothing would have been enough. -/
def Shorter.within {bs : Bytes} (rest : Shorter bs) : Within bs :=
  ⟨rest.1, Nat.le_of_lt rest.2⟩

/-- Reads a number of at most ten bytes; `count` of them have been read. -/
def takeVarint? (count : Nat) : (bs : Bytes) → Option (Nat × Shorter bs)
  | [] => none
  | b :: rest =>
    if b < 0x80 then
      if count = 9 ∧ 2 ≤ b then none else some (b.toNat, ⟨rest, by simp⟩)
    else if 9 ≤ count then none
    else do
      let (high, last) ← takeVarint? (count + 1) rest
      return (b.toNat - 128 + 128 * high, ⟨last.1, by simp; omega⟩)

def readVarint (bs : Bytes) : Except ReadError (Nat × Shorter bs) :=
  match takeVarint? 0 bs with
  | some result => .ok result
  | none => .error (.bare .varint)

def readKey (bs : Bytes) : Except ReadError (Nat × Layout × Shorter bs) := do
  let (key, rest) ← readVarint bs
  if 0xFFFFFFFF < key then throw (.bare (.keyValue key))
  match Layout.ofCode? (key % 8) with
  | none => throw (.bare (.layoutCode (key % 8)))
  | some layout =>
    if key / 8 = 0 then throw (.bare .zeroNumber)
    return (key / 8, layout, rest)

def dropBytes (count : Nat) (bs : Bytes) : Except ReadError (Within bs) :=
  if bs.length < count then .error (.bare .underflow)
  else .ok ⟨bs.drop count, by simp⟩

mutual

def skipValue (number : Nat) (layout : Layout) (budget : Nat) (bs : Bytes) :
    Except ReadError (Within bs) := do
  if budget = 0 then throw (.bare .recursionLimit)
  match layout with
  | .varint => do
    let (_, rest) ← readVarint bs
    return Shorter.within rest
  | .fixed32 => dropBytes 4 bs
  | .fixed64 => dropBytes 8 bs
  | .delimited => do
    let (length, rest) ← readVarint bs
    let last ← dropBytes length rest.1
    return ⟨last.1, Nat.le_trans last.2 (Nat.le_of_lt rest.2)⟩
  | .startGroup => skipGroup number budget bs
  | .endGroup => throw (.bare .endGroup)
termination_by 2 * bs.length + 1

/-- Skips the fields of a group and the key at its end. -/
def skipGroup (number budget : Nat) (bs : Bytes) : Except ReadError (Within bs) := do
  let (inner, layout, rest) ← readKey bs
  if layout = .endGroup then
    if inner ≠ number then throw (.bare .endGroup)
    return Shorter.within rest
  let next ← skipValue inner layout (budget - 1) rest.1
  let last ← skipGroup number budget next.1
  return ⟨last.1, Nat.le_trans last.2 (Nat.le_trans next.2 (Nat.le_of_lt rest.2))⟩
termination_by 2 * bs.length
decreasing_by
  · have := rest.2
    omega
  · have := Nat.lt_of_le_of_lt next.2 rest.2
    omega

end

end RpcGateway.Wire
