import RpcGateway.Proofs.Text.Percent
import RpcGateway.Web.Trailers
/-!
# Reading trailers back

A block of trailers is two lines and an empty one, whatever the message says, and the code is read from it
as it was written. The message loses the spaces at its ends, which stand in the block as they are and are
trimmed with the blank before it.
-/
namespace RpcGateway.Web.Trailers

/-- The line of a name and a value. -/
def lineOf (name : String) (value : List Char) : List Char :=
  name.toList ++ ':' :: ' ' :: value

def codeLine (code : StatusCode) : List Char :=
  lineOf codeName (toString code.number).toList

def messageLine (message : String) : List Char :=
  lineOf messageName (message.toList.flatMap Percent.escape)

private theorem block_eq_encode (s : Status) :
    block s = Utf8.encode (codeLine s.code ++ '\r' :: '\n' ::
      (messageLine s.message ++ ['\r', '\n', '\r', '\n'])) := by
  have hescaped : Percent.encode (bytesOf s.message) =
      Utf8.encode (s.message.toList.flatMap Percent.escape) := (Percent.encode_escape _).symm
  rw [block, hescaped]
  simp [codeLine, messageLine, lineOf, bytesOf, Utf8.encode, toString]

private theorem lines_append {line : List Char} (h : '\r' ∉ line) (rest : List Char) :
    lines (line ++ '\r' :: '\n' :: rest) = line :: lines rest := by
  induction line with
  | nil => rw [List.nil_append, lines]
  | cons c more ih =>
    rw [List.mem_cons, not_or] at h
    rw [List.cons_append, lines, ih h.2]
    rintro _ rfl
    exact absurd rfl h.1

private theorem splitLine_append {name : List Char} (h : ':' ∉ name) (value : List Char) :
    splitLine (name ++ ':' :: value) = some (name, value) := by
  have hall : ∀ c ∈ name, (c ≠ ':' : Bool) = true := by
    intro c hc
    simp only [decide_not, Bool.not_eq_eq_eq_not, Bool.not_true, decide_eq_false_iff_not]
    rintro rfl
    exact h hc
  rw [splitLine, List.dropWhile_append_of_pos hall, List.takeWhile_append_of_pos hall]
  simp

private theorem readLine_code (s : Status) (code : StatusCode) :
    readLine s (codeLine code) = { s with code := code } := by
  have hname : ':' ∉ codeName.toList := by decide
  have hlower : (Blank.trim codeName.toList).map Char.toLower = codeName.toList := by decide
  have hnumber : Numeral.readInt32 (Blank.trim (' ' :: (toString code.number).toList)) =
      .ok code.number := by
    cases code <;> rfl
  rw [readLine, codeLine, lineOf, splitLine_append hname]
  simp only [hlower, hnumber, if_true, StatusCode.ofNumber_number]

def withoutOuterSpaces (message : String) : String :=
  String.ofList (Blank.trimBy (· == ' ') message.toList)

private theorem readMessage_escape (message : String) :
    readMessage (Blank.trim (' ' :: message.toList.flatMap Percent.escape)) =
      withoutOuterSpaces message := by
  have htrim : Blank.trim (' ' :: message.toList.flatMap Percent.escape) =
      (Blank.trimBy (· == ' ') message.toList).flatMap Percent.escape := by
    rw [Blank.trim, Blank.trimBy_cons_of_pos (by decide), Percent.keepsBlanks_escape.trimBy]
  rw [htrim, readMessage, Percent.encode_escape, Percent.decode_encode, lossyText,
    Utf8.lossy_encode, withoutOuterSpaces]

private theorem readLine_message (s : Status) (message : String) :
    readLine s (messageLine message) = { s with message := withoutOuterSpaces message } := by
  have hname : ':' ∉ messageName.toList := by decide
  have hlower : (Blank.trim messageName.toList).map Char.toLower = messageName.toList := by decide
  have hother : messageName.toList ≠ codeName.toList := by decide
  rw [readLine, messageLine, lineOf, splitLine_append hname]
  simp only [hlower, if_neg hother, if_true, readMessage_escape]

private theorem not_mem_codeLine (code : StatusCode) : '\r' ∉ codeLine code := by
  cases code <;> decide

private theorem not_mem_messageLine (message : String) : '\r' ∉ messageLine message := by
  have hname : '\r' ∉ messageName.toList := by decide
  have hescaped : '\r' ∉ message.toList.flatMap Percent.escape :=
    fun h => absurd (Percent.toNat_of_mem_escape h).1 (by decide)
  simp [messageLine, lineOf, hname, hescaped]

theorem lines_block (s : Status) :
    lines (Utf8.lossy (block s)) = [codeLine s.code, messageLine s.message, [], []] := by
  rw [block_eq_encode, Utf8.lossy_encode, lines_append (not_mem_codeLine s.code),
    lines_append (not_mem_messageLine s.message)]
  rfl

theorem readLine_nil (s : Status) : readLine s [] = s := rfl

/-- A block is read as the code and the message without the spaces at its ends. -/
theorem read_block (s : Status) : read (block s) = ⟨s.code, withoutOuterSpaces s.message⟩ := by
  rw [read, lines_block]
  simp only [List.foldl_cons, List.foldl_nil, readLine_code, readLine_message, readLine_nil]

def HasOuterSpace (message : String) : Prop :=
  message.toList.head? = some ' ' ∨ message.toList.getLast? = some ' '

instance (message : String) : Decidable (HasOuterSpace message) :=
  inferInstanceAs (Decidable (_ ∨ _))

private theorem withoutOuterSpaces_eq_self_iff {message : String} :
    withoutOuterSpaces message = message ↔ ¬ HasOuterSpace message := by
  have hlist : withoutOuterSpaces message = message ↔
      Blank.trimBy (· == ' ') message.toList = message.toList := by
    rw [withoutOuterSpaces, ← String.toList_inj, String.toList_ofList]
  rw [hlist, Blank.trimBy_eq_self_iff, HasOuterSpace, not_or]
  cases message.toList.head? <;> cases message.toList.getLast? <;> simp

/-- A block is read as the code and the message without the spaces at its ends. So a status is read back
as it was written exactly if its message has none there. -/
theorem read_block_eq_self_iff (s : Status) :
    read (block s) = ⟨s.code, withoutOuterSpaces s.message⟩ ∧
      (read (block s) = s ↔ ¬ HasOuterSpace s.message) := by
  refine ⟨read_block s, ?_⟩
  rw [read_block, ← withoutOuterSpaces_eq_self_iff]
  constructor
  · intro h
    exact congrArg Status.message h
  · intro h
    rw [h]

theorem read_block_ne_leading_space :
    read (block ⟨.outOfRange, " lead"⟩) = ⟨.outOfRange, "lead"⟩ ∧
      read (block ⟨.outOfRange, " lead"⟩) ≠ ⟨.outOfRange, " lead"⟩ := by
  have hread : read (block ⟨.outOfRange, " lead"⟩) = ⟨.outOfRange, "lead"⟩ := by
    rw [read_block]
    decide
  exact ⟨hread, by rw [hread]; decide⟩

end RpcGateway.Web.Trailers
