/-!
# UTF-8

Byte strings and their reading as text. Reading is either strict (`decode?`) or lossy (`lossy`): the
lossy reading puts one replacement character in the place of each maximal part that fits no character.
Both readings share one grammar, `tails`: the ranges of the bytes that follow a leading byte.
-/
namespace RpcGateway

abbrev Bytes := List UInt8

namespace Utf8

def encode (cs : List Char) : Bytes :=
  cs.flatMap String.utf8EncodeChar

/-- The ranges of the bytes that follow a leading byte; none if no character starts with it. -/
def tails (b : UInt8) : Option (List (UInt8 × UInt8)) :=
  if b < 0x80 then some []
  else if b < 0xC2 then none
  else if b < 0xE0 then some [(0x80, 0xBF)]
  else if b = 0xE0 then some [(0xA0, 0xBF), (0x80, 0xBF)]
  else if b = 0xED then some [(0x80, 0x9F), (0x80, 0xBF)]
  else if b < 0xF0 then some [(0x80, 0xBF), (0x80, 0xBF)]
  else if b = 0xF0 then some [(0x90, 0xBF), (0x80, 0xBF), (0x80, 0xBF)]
  else if b < 0xF4 then some [(0x80, 0xBF), (0x80, 0xBF), (0x80, 0xBF)]
  else if b = 0xF4 then some [(0x80, 0x8F), (0x80, 0xBF), (0x80, 0xBF)]
  else none

/-- The longest run at the start of the bytes that fits the ranges in order. -/
def takeTail : List (UInt8 × UInt8) → Bytes → Bytes
  | (lo, hi) :: ranges, b :: rest =>
    if lo ≤ b ∧ b ≤ hi then b :: takeTail ranges rest else []
  | _, _ => []

/-- The character spelled by a leading byte and its complete tail, six bits to a tail byte. -/
def scalar (b : UInt8) (tail : Bytes) : Char :=
  let lead := match tail.length with
    | 0 => b.toNat
    | 1 => b.toNat % 32
    | 2 => b.toNat % 16
    | _ => b.toNat % 8
  Char.ofNat (tail.foldl (fun value t => value * 64 + t.toNat % 64) lead)

/-- The text of the bytes, with U+FFFD for each maximal part that fits no character. -/
def lossy : Bytes → List Char
  | [] => []
  | b :: rest =>
    match tails b with
    | none => '\uFFFD' :: lossy rest
    | some ranges =>
      let tail := takeTail ranges rest
      (if tail.length = ranges.length then scalar b tail else '\uFFFD') ::
        lossy (rest.drop tail.length)
termination_by bs => bs.length
decreasing_by all_goals simp only [List.length_cons, List.length_drop]; omega

/-- The text of the bytes, if all of them are well formed. -/
def decode? : Bytes → Option (List Char)
  | [] => some []
  | b :: rest => do
    let ranges ← tails b
    let tail := takeTail ranges rest
    if tail.length = ranges.length then
      return scalar b tail :: (← decode? (rest.drop tail.length))
    else none
termination_by bs => bs.length
decreasing_by simp only [List.length_cons, List.length_drop]; omega

end Utf8

def bytesOf (s : String) : Bytes :=
  Utf8.encode s.toList

def lossyText (bs : Bytes) : String :=
  String.ofList (Utf8.lossy bs)

end RpcGateway
