/-!
# Durations

A span of time in whole nanoseconds, and its text: the largest unit whose integer part is not zero, with
as many decimals as are needed.
-/
namespace RpcGateway

structure Duration where
  nanoseconds : Nat
  deriving DecidableEq, Repr

namespace Duration

def ofMilliseconds (n : Nat) : Duration := ⟨n * 1000000⟩

def ofSeconds (n : Nat) : Duration := ⟨n * 1000000000⟩

/-- The decimals of `fraction / 10 ^ width`, without trailing zeros. -/
def decimals (width fraction : Nat) : List Char :=
  let digits := Nat.toDigits 10 fraction
  let padded := List.replicate (width - digits.length) '0' ++ digits
  (padded.reverse.dropWhile (· == '0')).reverse

/-- A number of nanoseconds counted in a unit of `10 ^ width` of them. -/
def inUnit (width : Nat) (unit : String) (n : Nat) : String :=
  let size := Nat.pow 10 width
  let fraction := n % size
  let whole := toString (n / size)
  if fraction = 0 then whole ++ unit
  else whole ++ "." ++ String.ofList (decimals width fraction) ++ unit

def text (d : Duration) : String :=
  let n := d.nanoseconds
  if 1000000000 ≤ n then inUnit 9 "s" n
  else if 1000000 ≤ n then inUnit 6 "ms" n
  else if 1000 ≤ n then inUnit 3 "µs" n
  else inUnit 0 "ns" n

end Duration

end RpcGateway
