/-!
# Decimal numerals

Reading of decimal integers of a bounded type: an optional sign, then one or more digits. A character
that is no digit is reported before an overflow that a later digit would cause, and not after it.
-/
namespace RpcGateway.Numeral

/-- Why a text is no numeral of the type. -/
inductive Error where
  | empty
  | invalidDigit
  | tooLarge
  | tooSmall
  deriving DecidableEq, Repr

def Error.message : Error → String
  | .empty => "cannot parse integer from empty string"
  | .invalidDigit => "invalid digit found in string"
  | .tooLarge => "number too large to fit in target type"
  | .tooSmall => "number too small to fit in target type"

def digit? (c : Char) : Option Nat :=
  if '0' ≤ c ∧ c ≤ '9' then some (c.toNat - '0'.toNat) else none

/-- Appends digits to a value that must stay within `bound`. -/
def extend (bound : Nat) (overflow : Error) : Nat → List Char → Except Error Nat
  | value, [] => .ok value
  | value, c :: rest =>
    match digit? c with
    | none => .error .invalidDigit
    | some d =>
      if 10 * value + d ≤ bound then extend bound overflow (10 * value + d) rest
      else .error overflow

def magnitude (bound : Nat) (overflow : Error) (cs : List Char) : Except Error Nat :=
  if cs.isEmpty then .error .invalidDigit else extend bound overflow 0 cs

/-- Reads a numeral from `0` to `bound`; a plus sign is allowed. -/
def readNat (bound : Nat) : List Char → Except Error Nat
  | [] => .error .empty
  | '+' :: rest => magnitude bound .tooLarge rest
  | cs => magnitude bound .tooLarge cs

/-- The largest value of a signed word of 32 bits. The smallest has an absolute value of one more. -/
def maxInt32 : Nat := 0x7FFFFFFF

/-- Reads a signed word of 32 bits; either sign is allowed. -/
def readInt32 : List Char → Except Error Int
  | [] => .error .empty
  | '+' :: rest => (magnitude maxInt32 .tooLarge rest).map Int.ofNat
  | '-' :: rest => (magnitude (maxInt32 + 1) .tooSmall rest).map fun n => -(n : Int)
  | cs => (magnitude maxInt32 .tooLarge cs).map Int.ofNat

/-- The largest value of an unsigned word of 16 bits. -/
def maxWord16 : Nat := 0xFFFF

/-- The largest value of an unsigned word of 64 bits. -/
def maxWord64 : Nat := 0xFFFFFFFFFFFFFFFF

end RpcGateway.Numeral
