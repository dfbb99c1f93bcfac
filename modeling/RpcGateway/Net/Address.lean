import RpcGateway.Text.Numeral
/-!
# Internet addresses

Addresses of version 4, four decimal numbers between dots, and of version 6, eight hexadecimal numbers
between colons. A run of zeros in the latter may be written as a double colon, and its last two numbers in
the form of version 4.
-/
namespace RpcGateway.Net

structure Address4 where
  a : UInt8
  b : UInt8
  c : UInt8
  d : UInt8
  deriving DecidableEq, Repr

/-- Reads a decimal number below 256 without needless zeros. -/
def octet? (cs : List Char) : Option UInt8 :=
  if cs.length ≤ 3 ∧ (cs.length ≤ 1 ∨ cs.head? ≠ some '0') ∧ cs.all Char.isDigit then
    match Numeral.readNat 255 cs with
    | .ok n => some (UInt8.ofNat n)
    | .error _ => none
  else none

namespace Address4

def ofText? (cs : List Char) : Option Address4 :=
  match cs.splitOn '.' with
  | [a, b, c, d] => do return ⟨← octet? a, ← octet? b, ← octet? c, ← octet? d⟩
  | _ => none

def text (x : Address4) : String :=
  s!"{x.a.toNat}.{x.b.toNat}.{x.c.toNat}.{x.d.toNat}"

/-- The two numbers that stand for an address inside one of version 6. -/
def groups (x : Address4) : List Nat :=
  [256 * x.a.toNat + x.b.toNat, 256 * x.c.toNat + x.d.toNat]

end Address4

structure Address6 where
  groups : List Nat
  size : groups.length = 8
  deriving DecidableEq, Repr

def hexDigit? (c : Char) : Option Nat :=
  if '0' ≤ c ∧ c ≤ '9' then some (c.toNat - '0'.toNat)
  else if 'a' ≤ c ∧ c ≤ 'f' then some (c.toNat - 'a'.toNat + 10)
  else if 'A' ≤ c ∧ c ≤ 'F' then some (c.toNat - 'A'.toNat + 10)
  else none

def group? (cs : List Char) : Option Nat :=
  if cs.isEmpty ∨ 4 < cs.length then none
  else cs.foldlM (fun value c => (hexDigit? c).map (16 * value + ·)) 0

/-- Reads numbers in hexadecimal form; with `four`, the last may have the form of version 4. -/
def groups? (four : Bool) : List (List Char) → Option (List Nat)
  | [] => some []
  | [part] =>
    match group? part with
    | some n => some [n]
    | none => if four then (Address4.ofText? part).map (·.groups) else none
  | part :: rest => do return (← group? part) :: (← groups? four rest)

/-- The parts between single colons; nothing at all has none. -/
def parts (cs : List Char) : List (List Char) :=
  if cs.isEmpty then [] else cs.splitOn ':'

/-- The text before and after the first double colon. -/
def splitDouble : List Char → Option (List Char × List Char)
  | ':' :: ':' :: rest => some ([], rest)
  | c :: rest => (splitDouble rest).map fun (before, after) => (c :: before, after)
  | [] => none

namespace Address6

def ofGroups? (groups : List Nat) : Option Address6 :=
  if size : groups.length = 8 then some ⟨groups, size⟩ else none

/-- Reads an address. A double colon stands for one zero or more. -/
def ofText? (cs : List Char) : Option Address6 :=
  match splitDouble cs with
  | none => (groups? true (parts cs)).bind ofGroups?
  | some (before, after) => do
    let before ← groups? false (parts before)
    let after ← groups? true (parts after)
    let given := before.length + after.length
    if given ≤ 7 then ofGroups? (before ++ List.replicate (8 - given) 0 ++ after) else none

/-- Numbers in hexadecimal form with colons between them. -/
def joined (groups : List Nat) : String :=
  String.intercalate ":" (groups.map fun n => String.ofList (Nat.toDigits 16 n))

/-- The lengths of the runs of zeros that start at each number. -/
def zeroRuns : List Nat → List Nat
  | [] => []
  | n :: rest =>
    let runs := zeroRuns rest
    (if n = 0 then runs.headD 0 + 1 else 0) :: runs

/-- The text of eight numbers: the first of the longest runs of zeros is left out, unless it has one zero
only. -/
def groupsText (groups : List Nat) : String :=
  let runs := zeroRuns groups
  let longest := runs.foldl max 0
  if longest ≤ 1 then joined groups
  else
    let start := runs.findIdx (· == longest)
    joined (groups.take start) ++ "::" ++ joined (groups.drop (start + longest))

/-- The text of an address. One that stands for an address of version 4 shows it. -/
def text (x : Address6) : String :=
  match x.groups with
  | [0, 0, 0, 0, 0, 0xFFFF, high, low] =>
    "::ffff:" ++ (Address4.mk (UInt8.ofNat (high / 256)) (UInt8.ofNat high) (UInt8.ofNat (low / 256))
      (UInt8.ofNat low)).text
  | groups => groupsText groups

end Address6

end RpcGateway.Net
