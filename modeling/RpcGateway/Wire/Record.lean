import RpcGateway.Wire.Reader
/-!
# Records

Messages whose fields are known by a grammar: for each kind of record the numbers of its fields, their names
and what they hold. Reading gives the values in order, so that a later one can win over an earlier one, and
records of one field can be merged by putting their values one after the other.
-/
namespace RpcGateway.Wire

inductive Content (κ : Type) where
  | number (layout : Layout)
  | numbers
  | text
  | bytes
  | record (kind : κ)
  deriving DecidableEq, Repr

structure FieldRule (κ : Type) where
  number : Nat
  name : String
  content : Content κ
  deriving DecidableEq, Repr

structure Grammar (κ : Type) where
  name : κ → String
  fields : κ → List (FieldRule κ)

def Grammar.rule? {κ : Type} (g : Grammar κ) (kind : κ) (number : Nat) : Option (FieldRule κ) :=
  (g.fields kind).find? (·.number == number)

inductive Value where
  | number (n : Nat)
  | text (s : String)
  | bytes (bs : Bytes)
  | record (entries : List (Nat × Value))
  deriving Repr

/-- The values of a record by the numbers of their fields. -/
abbrev Entries := List (Nat × Value)

/-- Refuses a layout that does not fit the field. -/
def expectLayout (actual expected : Layout) : Except ReadError Unit :=
  if actual = expected then .ok () else .error (.bare (.layout actual expected))

/-- Reads a number of a layout that can hold one. -/
def readNumber (layout : Layout) (bs : Bytes) : Except ReadError (Nat × Within bs) := do
  match layout with
  | .fixed64 => return (0, ← dropBytes 8 bs)
  | .fixed32 => return (0, ← dropBytes 4 bs)
  | _ => do
    let (n, rest) ← readVarint bs
    return (n, Shorter.within rest)

/-- Reads a length and checks that so many bytes are left. -/
def readLength (bs : Bytes) : Except ReadError (Nat × Shorter bs) := do
  let (length, rest) ← readVarint bs
  if rest.1.length < length then throw (.bare .underflow)
  return (length, rest)

def readBytes (bs : Bytes) : Except ReadError (Bytes × Within bs) := do
  let (length, rest) ← readLength bs
  return (rest.1.take length,
    ⟨rest.1.drop length, by have := rest.2; simp only [List.length_drop]; omega⟩)

/-- Reads numbers until at most `limit` bytes are left. -/
def readPacked (number limit : Nat) (bs : Bytes) : Except ReadError (Entries × Within bs) :=
  if bs.length ≤ limit then .ok ([], ⟨bs, Nat.le_refl _⟩)
  else do
    let (n, rest) ← readVarint bs
    let (entries, last) ← readPacked number limit rest.1
    return ((number, .number n) :: entries, ⟨last.1, Nat.le_trans last.2 (Nat.le_of_lt rest.2)⟩)
termination_by bs.length
decreasing_by exact rest.2

/-- Refuses a value that went on behind its end. -/
def expectEnd (limit : Nat) (bs : Bytes) : Except ReadError Unit :=
  if bs.length = limit then .ok () else .error (.bare .lengthExceeded)

/-- Puts a field in front of the path of an error. -/
def inField {α : Type} (message field : String) (result : Except ReadError α) :
    Except ReadError α :=
  result.mapError fun e => { e with path := e.path ++ [(message, field)] }

mutual

/-- Reads fields until at most `limit` bytes are left. -/
def readFields {κ : Type} (g : Grammar κ) (kind : κ) (budget limit : Nat) (bs : Bytes) :
    Except ReadError (Entries × Within bs) :=
  if bs.length ≤ limit then .ok ([], ⟨bs, Nat.le_refl _⟩)
  else do
    let (number, layout, rest) ← readKey bs
    let (entries, next) ← readField g kind number layout budget rest.1
    let (more, last) ← readFields g kind budget limit next.1
    return (entries ++ more,
      ⟨last.1, Nat.le_trans last.2 (Nat.le_trans next.2 (Nat.le_of_lt rest.2))⟩)
termination_by 2 * bs.length
decreasing_by
  · have := rest.2
    omega
  · have := Nat.lt_of_le_of_lt next.2 rest.2
    omega

def readField {κ : Type} (g : Grammar κ) (kind : κ) (number : Nat) (layout : Layout) (budget : Nat)
    (bs : Bytes) : Except ReadError (Entries × Within bs) :=
  match g.rule? kind number with
  | none => do return ([], ← skipValue number layout budget bs)
  | some rule => inField (g.name kind) rule.name <|
    match rule.content with
    | .number expected => do
      expectLayout layout expected
      let (n, rest) ← readNumber expected bs
      return ([(number, .number n)], rest)
    | .numbers =>
      if layout = .delimited then do
        let (length, rest) ← readLength bs
        let limit := rest.1.length - length
        let (entries, last) ← readPacked number limit rest.1
        expectEnd limit last.1
        return (entries, ⟨last.1, Nat.le_trans last.2 (Nat.le_of_lt rest.2)⟩)
      else do
        expectLayout layout .varint
        let (n, rest) ← readNumber .varint bs
        return ([(number, .number n)], rest)
    | .text => do
      expectLayout layout .delimited
      let (bytes, rest) ← readBytes bs
      match Utf8.decode? bytes with
      | some cs => return ([(number, .text (String.ofList cs))], rest)
      | none => throw (.bare .notText)
    | .bytes => do
      expectLayout layout .delimited
      let (bytes, rest) ← readBytes bs
      return ([(number, .bytes bytes)], rest)
    | .record inner => do
      expectLayout layout .delimited
      if budget = 0 then throw (.bare .recursionLimit)
      let (length, rest) ← readLength bs
      let limit := rest.1.length - length
      let (entries, last) ← readFields g inner (budget - 1) limit rest.1
      expectEnd limit last.1
      return ([(number, .record entries)], ⟨last.1, Nat.le_trans last.2 (Nat.le_of_lt rest.2)⟩)
termination_by 2 * bs.length + 1
decreasing_by
  have := rest.2
  omega

end

def maxDepth : Nat := 100

/-- Reads a record of a kind that takes all the bytes. -/
def decode {κ : Type} (g : Grammar κ) (kind : κ) (bs : Bytes) : Except ReadError Entries :=
  (readFields g kind maxDepth 0 bs).map Prod.fst

namespace Entries

def valuesOf (number : Nat) (entries : Entries) : List Value :=
  (entries.filter (·.1 == number)).map Prod.snd

def numbers (number : Nat) (entries : Entries) : List Nat :=
  (valuesOf number entries).filterMap fun
    | .number n => some n
    | _ => none

def texts (number : Nat) (entries : Entries) : List String :=
  (valuesOf number entries).filterMap fun
    | .text s => some s
    | _ => none

def records (number : Nat) (entries : Entries) : List Entries :=
  (valuesOf number entries).filterMap fun
    | .record entries => some entries
    | _ => none

/-- The number of a field that has one; the last one counts. -/
def number? (number : Nat) (entries : Entries) : Option Nat :=
  (numbers number entries).getLast?

/-- The text of a field that has one; the last one counts. -/
def text? (number : Nat) (entries : Entries) : Option String :=
  (texts number entries).getLast?

def int32? (number : Nat) (entries : Entries) : Option Int :=
  (number? number entries).map toInt32

/-- The truth value of a field that has one. -/
def bool? (number : Nat) (entries : Entries) : Option Bool :=
  (number? number entries).map (· != 0)

/-- The record of a field that has one; several are merged. -/
def record? (number : Nat) (entries : Entries) : Option Entries :=
  match records number entries with
  | [] => none
  | parts => some parts.flatten

end Entries

end RpcGateway.Wire
