import RpcGateway.Text.Utf8
/-!
# Wire values

The binary form of messages is a sequence of fields. Each starts with a key, which holds the number of the
field and how its value is laid out. Numbers are written in groups of seven bits, the lowest first.
-/
namespace RpcGateway.Wire

inductive Layout where
  | varint
  | fixed64
  | delimited
  | startGroup
  | endGroup
  | fixed32
  deriving DecidableEq, Repr

namespace Layout

def code : Layout → Nat
  | .varint => 0
  | .fixed64 => 1
  | .delimited => 2
  | .startGroup => 3
  | .endGroup => 4
  | .fixed32 => 5

def ofCode? : Nat → Option Layout
  | 0 => some .varint
  | 1 => some .fixed64
  | 2 => some .delimited
  | 3 => some .startGroup
  | 4 => some .endGroup
  | 5 => some .fixed32
  | _ => none

def name : Layout → String
  | .varint => "Varint"
  | .fixed64 => "SixtyFourBit"
  | .delimited => "LengthDelimited"
  | .startGroup => "StartGroup"
  | .endGroup => "EndGroup"
  | .fixed32 => "ThirtyTwoBit"

end Layout

def varint (n : Nat) : Bytes :=
  if n < 128 then [UInt8.ofNat n] else UInt8.ofNat (n % 128 + 128) :: varint (n / 128)
termination_by n

def key (number : Nat) (layout : Layout) : Bytes :=
  varint (8 * number + layout.code)

def bytesField (number : Nat) (bs : Bytes) : Bytes :=
  key number .delimited ++ varint bs.length ++ bs

def textField (number : Nat) (s : String) : Bytes :=
  bytesField number (bytesOf s)

/-- Writes a field of an integer; a negative one takes all sixty-four bits. -/
def intField (number : Nat) (i : Int) : Bytes :=
  key number .varint ++ varint (i % 0x10000000000000000).toNat

def boolField (number : Nat) (b : Bool) : Bytes :=
  key number .varint ++ varint (if b then 1 else 0)

/-- The integer in the low thirty-two bits of a number. -/
def toInt32 (n : Nat) : Int :=
  Int.bmod n 0x100000000

end RpcGateway.Wire
