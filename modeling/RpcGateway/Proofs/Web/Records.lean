import RpcGateway.Proofs.Text.Ascii
import RpcGateway.Proofs.Text.Unambiguous
import RpcGateway.Web.Frame
/-!
# Records of a body

The grammar of bodies: records one after the other, each a flag, the length of its payload in four bytes and
the payload. Reading accepts exactly the bodies that consist of records that are not compressed; every
other body is a row of such records and an end that offends, and reading says what is wrong with this end.
-/
namespace RpcGateway.Web

/-- A flag byte and a payload, whatever the flag says. -/
structure Record where
  flag : UInt8
  payload : Bytes
  deriving DecidableEq, Repr

namespace Record

def bytes (r : Record) : Bytes :=
  r.flag :: lengthBytes r.payload.length ++ r.payload

/-- The length of the payload can be written in four bytes. -/
def Fits (r : Record) : Prop :=
  r.payload.length < 0x100000000

/-- Bit 7 of the flag is clear and bit 0 is set. -/
def IsCompressed (r : Record) : Prop :=
  r.flag.toNat.testBit 7 = false ∧ r.flag.toNat.testBit 0 = true

/-- What a record is read as: bit 7 of the flag marks trailers. -/
def frame (r : Record) : Frame :=
  if r.flag.toNat.testBit 7 = true then .trailers r.payload else .data r.payload

instance (r : Record) : Decidable r.Fits :=
  inferInstanceAs (Decidable (r.payload.length < 0x100000000))

instance (r : Record) : Decidable r.IsCompressed :=
  inferInstanceAs (Decidable (_ ∧ _))

/-- A record that can be written and read. -/
structure IsReadable (r : Record) : Prop where
  fits : r.Fits
  uncompressed : ¬ r.IsCompressed

instance (r : Record) : Decidable r.IsReadable :=
  decidable_of_iff (r.Fits ∧ ¬ r.IsCompressed)
    ⟨fun h => ⟨h.1, h.2⟩, fun h => ⟨h.fits, h.uncompressed⟩⟩

end Record

/-- Bytes that are a row of records which can be read. -/
structure Consists (bs : Bytes) (records : List Record) : Prop where
  bytes : bs = records.flatMap Record.bytes
  readable : ∀ r ∈ records, r.IsReadable

/-- Bytes that do not begin with a record that can be read, and what is wrong with them. -/
inductive Offends : Bytes → BodyError → Prop
  | shortHead (bs : Bytes) (begun : 0 < bs.length) (short : bs.length < headerLength) :
    Offends bs (.shortHead bs.length)
  | shortPayload (flag a b c d : UInt8) (rest : Bytes)
    (short : rest.length < declaredLength a b c d) :
    Offends (flag :: a :: b :: c :: d :: rest) (.shortPayload (declaredLength a b c d) rest.length)
  | compressed (r : Record) (rest : Bytes) (fits : r.Fits) (marked : r.IsCompressed) :
    Offends (r.bytes ++ rest) .compressed

private theorem marksTrailers_eq_testBit (flag : UInt8) : marksTrailers flag = flag.toNat.testBit 7 :=
  forall_byte (P := fun b => marksTrailers b = b.toNat.testBit 7) (by decide +kernel) flag

private theorem marksCompressed_eq_testBit (flag : UInt8) : marksCompressed flag = flag.toNat.testBit 0 :=
  forall_byte (P := fun b => marksCompressed b = b.toNat.testBit 0) (by decide +kernel) flag

private theorem declaredLength_lt (a b c d : UInt8) : declaredLength a b c d < 0x100000000 := by
  have ha := a.toNat_lt
  have hb := b.toNat_lt
  have hc := c.toNat_lt
  have hd := d.toNat_lt
  simp only [declaredLength]
  omega

private theorem lengthBytes_declaredLength (a b c d : UInt8) :
    lengthBytes (declaredLength a b c d) = [a, b, c, d] := by
  have ha := a.toNat_lt
  have hb := b.toNat_lt
  have hc := c.toNat_lt
  have hd := d.toNat_lt
  simp only [lengthBytes, declaredLength, List.cons.injEq, and_true, ← UInt8.toNat_inj,
    UInt8.toNat_ofNat']
  omega

private theorem exists_record (flag : UInt8) {a b c d : UInt8} {rest : Bytes}
    (h : declaredLength a b c d ≤ rest.length) :
    ∃ r : Record, r.Fits ∧ r.flag = flag ∧ r.payload = rest.take (declaredLength a b c d) ∧
      flag :: a :: b :: c :: d :: rest = r.bytes ++ rest.drop (declaredLength a b c d) := by
  have hlength : (rest.take (declaredLength a b c d)).length = declaredLength a b c d :=
    List.length_take_of_le h
  refine ⟨⟨flag, rest.take (declaredLength a b c d)⟩, ?_, rfl, rfl, ?_⟩
  · rw [Record.Fits, hlength]
    exact declaredLength_lt a b c d
  · rw [Record.bytes, hlength, lengthBytes_declaredLength, List.append_assoc, List.take_append_drop]
    rfl

private theorem cutsOff_bytes : Cut.CutsOff Record.Fits Record.bytes := by
  rintro ⟨flag, payload⟩ ⟨flag', payload'⟩ s t hfits hfits' heq
  simp only [Record.bytes, lengthBytes, List.cons_append, List.nil_append, List.cons.injEq] at heq
  obtain ⟨rfl, h₁, h₂, h₃, h₄, hrest⟩ := heq
  have hlength : payload.length = payload'.length := by
    rw [← declaredLength_lengthBytes (n := payload.length) hfits,
      ← declaredLength_lengthBytes (n := payload'.length) hfits', h₁, h₂, h₃, h₄]
  obtain ⟨rfl, rfl⟩ := List.append_inj hrest hlength
  exact ⟨rfl, rfl⟩

theorem readFrames_nil : readFrames [] = .ok [] := by
  rw [readFrames]

/-- The first record decides what a body is read as, together with what follows it. -/
theorem readFrames_bytes_append {r : Record} (h : r.Fits) (rest : Bytes) :
    readFrames (r.bytes ++ rest) =
      if r.IsCompressed then .error .compressed else (readFrames rest).map (r.frame :: ·) := by
  obtain ⟨flag, payload⟩ := r
  simp only [Record.bytes, lengthBytes, List.cons_append, List.nil_append]
  rw [readFrames]
  simp only [declaredLength_lengthBytes h]
  rw [if_neg (by simp), List.take_left, List.drop_left, marksTrailers_eq_testBit,
    marksCompressed_eq_testBit]
  cases h7 : flag.toNat.testBit 7 <;> cases h0 : flag.toNat.testBit 0 <;>
    simp only [Record.IsCompressed, Record.frame, h7, h0] <;> cases readFrames rest <;> rfl

private theorem readFrames_records_append {records : List Record} (h : ∀ r ∈ records, r.IsReadable)
    (rest : Bytes) :
    readFrames (records.flatMap Record.bytes ++ rest) =
      (readFrames rest).map (records.map Record.frame ++ ·) := by
  induction records with
  | nil => cases hrest : readFrames rest <;> simp [hrest, Except.map]
  | cons r more ih =>
    rw [List.forall_mem_cons] at h
    rw [List.flatMap_cons, List.append_assoc, readFrames_bytes_append h.1.fits,
      if_neg h.1.uncompressed, ih h.2]
    cases readFrames rest <;> rfl

private theorem Consists.readFrames {bs : Bytes} {records : List Record} (h : Consists bs records) :
    readFrames bs = .ok (records.map Record.frame) := by
  have hread := readFrames_records_append h.readable []
  rw [List.append_nil, readFrames_nil] at hread
  rw [h.bytes, hread]
  simp [Except.map]

theorem Offends.readFrames {bs : Bytes} {e : BodyError} (h : Offends bs e) :
    readFrames bs = .error e := by
  cases h with
  | shortHead _ begun short =>
    match bs, begun, short with
    | [_], _, _ => rw [Web.readFrames] <;> simp
    | [_, _], _, _ => rw [Web.readFrames] <;> simp
    | [_, _, _], _, _ => rw [Web.readFrames] <;> simp
    | [_, _, _, _], _, _ => rw [Web.readFrames] <;> simp
    | _ :: _ :: _ :: _ :: _ :: rest, _, short =>
      simp only [headerLength, List.length_cons] at short
      omega
  | shortPayload flag a b c d rest short => rw [Web.readFrames, if_pos short]
  | compressed r rest fits marked => rw [readFrames_bytes_append fits, if_pos marked]

private theorem exists_head {bs : Bytes} (h : headerLength ≤ bs.length) :
    ∃ flag a b c d rest, bs = flag :: a :: b :: c :: d :: rest := by
  match bs, h with
  | flag :: a :: b :: c :: d :: rest, _ => exact ⟨flag, a, b, c, d, rest, rfl⟩

/-- Bytes end, begin with a record that can be read, or offend. -/
theorem first_record (bs : Bytes) :
    bs = [] ∨ (∃ r rest, Record.IsReadable r ∧ bs = r.bytes ++ rest) ∨ ∃ e, Offends bs e := by
  rcases Nat.lt_or_ge bs.length headerLength with hshort | hlong
  · cases bs with
    | nil => exact .inl rfl
    | cons b more => exact .inr (.inr ⟨_, .shortHead _ (by simp) hshort⟩)
  · obtain ⟨flag, a, b, c, d, rest, rfl⟩ := exists_head hlong
    by_cases hshort : rest.length < declaredLength a b c d
    · exact .inr (.inr ⟨_, .shortPayload flag a b c d rest hshort⟩)
    · obtain ⟨r, hfits, -, -, heq⟩ := exists_record flag (Nat.le_of_not_lt hshort)
      rw [heq]
      by_cases hmarked : r.IsCompressed
      · exact .inr (.inr ⟨_, .compressed r _ hfits hmarked⟩)
      · exact .inr (.inl ⟨r, _, ⟨hfits, hmarked⟩, rfl⟩)

/-- Bytes that are a row of records which can be read, and then an end that offends. -/
def Breaks (bs : Bytes) (e : BodyError) : Prop :=
  ∃ (records : List Record) (rest : Bytes), (∀ r ∈ records, r.IsReadable) ∧
    bs = records.flatMap Record.bytes ++ rest ∧ Offends rest e

private theorem Breaks.readFrames {bs : Bytes} {e : BodyError} (h : Breaks bs e) :
    readFrames bs = .error e := by
  obtain ⟨records, rest, hreadable, rfl, hoffends⟩ := h
  rw [readFrames_records_append hreadable, hoffends.readFrames]
  rfl

private theorem consists_or_breaks (bs : Bytes) :
    (∃ records, Consists bs records) ∨ ∃ e, Breaks bs e := by
  -- On the length and not on the list, since a step takes off a whole record and not one byte.
  induction hn : bs.length using Nat.strongRecOn generalizing bs with
  | ind n ih =>
    rcases first_record bs with rfl | ⟨r, rest, hreadable, rfl⟩ | ⟨e, hoffends⟩
    · exact .inl ⟨[], rfl, by simp⟩
    · have hshorter : rest.length < n := by
        rw [← hn, List.length_append, Record.bytes, List.cons_append, List.length_cons]
        omega
      rcases ih _ hshorter rest rfl with ⟨records, hbytes, hall⟩ |
        ⟨e, records, last, hall, hbytes, hoffends⟩
      · left
        refine ⟨r :: records, ?_, List.forall_mem_cons.mpr ⟨hreadable, hall⟩⟩
        rw [List.flatMap_cons, ← hbytes]
      · right
        refine ⟨e, r :: records, last, List.forall_mem_cons.mpr ⟨hreadable, hall⟩, ?_, hoffends⟩
        rw [List.flatMap_cons, List.append_assoc, ← hbytes]
    · exact .inr ⟨e, [], bs, by simp, rfl, hoffends⟩

theorem readFrames_eq_ok_iff {bs : Bytes} {frames : List Frame} :
    readFrames bs = .ok frames ↔
      ∃ records, Consists bs records ∧ frames = records.map Record.frame := by
  constructor
  · intro hread
    rcases consists_or_breaks bs with ⟨records, hconsists⟩ | ⟨e, hbreaks⟩
    · rw [hconsists.readFrames] at hread
      exact ⟨records, hconsists, (Except.ok.inj hread).symm⟩
    · rw [hbreaks.readFrames] at hread
      cases hread
  · rintro ⟨records, hconsists, rfl⟩
    exact hconsists.readFrames

theorem readFrames_eq_error_iff {bs : Bytes} {e : BodyError} :
    readFrames bs = .error e ↔ Breaks bs e := by
  refine ⟨fun hread => ?_, Breaks.readFrames⟩
  rcases consists_or_breaks bs with ⟨records, hconsists⟩ | ⟨e', hbreaks⟩
  · rw [hconsists.readFrames] at hread
    cases hread
  · rw [hbreaks.readFrames] at hread
    exact Except.error.inj hread ▸ hbreaks

private theorem Consists.unique {bs : Bytes} {records records' : List Record} (h : Consists bs records)
    (h' : Consists bs records') : records = records' :=
  cutsOff_bytes.flatMap_injective (fun _ _ => List.cons_ne_nil _ _)
    (fun r hr => (h.readable r hr).fits) (fun r hr => (h'.readable r hr).fits)
    (h.bytes.symm.trans h'.bytes)

theorem writeFrame_eq_bytes {r : Record} (h : r.Fits) :
    writeFrame r.flag r.payload = .ok r.bytes :=
  if_pos h

private theorem appendFrame_tooLarge (buffer : Bytes) (flag : UInt8) {payload : Bytes}
    (h : 0x100000000 ≤ payload.length) :
    appendFrame buffer flag payload = (buffer, .error (.tooLarge payload.length)) := by
  rw [appendFrame, writeFrame, if_neg (Nat.not_lt.mpr h)]

private theorem appendFrames_records {records : List Record} (h : ∀ r ∈ records, r.Fits) (buffer : Bytes) :
    appendFrames buffer (records.map fun r => (r.flag, r.payload)) =
      (buffer ++ records.flatMap Record.bytes, .ok ()) := by
  induction records generalizing buffer with
  | nil => rw [List.map_nil, appendFrames, List.flatMap_nil, List.append_nil]
  | cons r more ih =>
    rw [List.forall_mem_cons] at h
    simp only [List.map_cons, appendFrames, appendFrame, writeFrame_eq_bytes h.1]
    rw [ih h.2, List.flatMap_cons, List.append_assoc]

private theorem exists_appendFrames {records : List Record} (h : ∀ r ∈ records, r.IsReadable) :
    ∃ buffer, appendFrames [] (records.map fun r => (r.flag, r.payload)) = (buffer, .ok ()) ∧
      Consists buffer records :=
  ⟨_, appendFrames_records (fun r hr => (h r hr).fits) [], rfl, h⟩

/-- Reading accepts exactly the bodies that are a row of records which can be read, a row that only one
list of records has, and gives their frames in order. Every other body breaks, and reading says how.
Records that are appended to an empty buffer are read back, and a payload that is too large leaves the
buffer as it was. -/
theorem readFrames_grammar :
    (∀ bs frames, readFrames bs = .ok frames ↔
      ∃ records, Consists bs records ∧ frames = records.map Record.frame) ∧
    (∀ bs records records', Consists bs records → Consists bs records' → records = records') ∧
    (∀ bs e, readFrames bs = .error e ↔ Breaks bs e) ∧
    (∀ records : List Record, (∀ r ∈ records, r.IsReadable) → ∃ buffer,
      appendFrames [] (records.map fun r => (r.flag, r.payload)) = (buffer, .ok ()) ∧
        readFrames buffer = .ok (records.map Record.frame)) ∧
    (∀ buffer flag payload, 0x100000000 ≤ payload.length →
      appendFrame buffer flag payload = (buffer, .error (.tooLarge payload.length))) := by
  refine ⟨fun _ _ => readFrames_eq_ok_iff, fun _ _ _ => Consists.unique,
    fun _ _ => readFrames_eq_error_iff, ?_, fun buffer flag _ => appendFrame_tooLarge buffer flag⟩
  intro records hreadable
  obtain ⟨buffer, happended, hconsists⟩ := exists_appendFrames hreadable
  exact ⟨buffer, happended, hconsists.readFrames⟩

/-- A message, trailers with the mark of compression, and a message with a flag that says nothing. -/
def mixedRecords : List Record := [⟨0x00, [1, 2]⟩, ⟨0x81, []⟩, ⟨0x02, [3]⟩]

def mixedBytes : Bytes := [0, 0, 0, 0, 2, 1, 2, 0x81, 0, 0, 0, 0, 2, 0, 0, 0, 1, 3]

theorem readFrames_grammar_mixed :
    Consists mixedBytes mixedRecords ∧
      readFrames mixedBytes = .ok [.data [1, 2], .trailers [], .data [3]] ∧
      (∀ records, Consists mixedBytes records → records = mixedRecords) ∧
      readFrames (mixedBytes ++ [0, 0, 0]) = .error (.shortHead 3) ∧
      (∃ buffer, appendFrames [] (mixedRecords.map fun r => (r.flag, r.payload)) = (buffer, .ok ()) ∧
        readFrames buffer = .ok (mixedRecords.map Record.frame)) ∧
      appendFrame mixedBytes plainFlag (List.replicate 0x100000000 0) =
        (mixedBytes, .error (.tooLarge (List.replicate 0x100000000 (0 : UInt8)).length)) := by
  have hreadable : ∀ r ∈ mixedRecords, r.IsReadable := by decide
  have hconsists : Consists mixedBytes mixedRecords := ⟨by decide, hreadable⟩
  have hbreaks : Breaks (mixedBytes ++ [0, 0, 0]) (.shortHead 3) :=
    ⟨mixedRecords, [0, 0, 0], hreadable, by decide, .shortHead [0, 0, 0] (by decide) (by decide)⟩
  obtain ⟨hok, hunique, herror, happended, hlarge⟩ := readFrames_grammar
  exact ⟨hconsists, (hok _ _).mpr ⟨_, hconsists, rfl⟩, fun _ h => hunique _ _ _ h hconsists,
    (herror _ _).mpr hbreaks, happended _ hreadable,
    hlarge _ _ _ (Nat.le_of_eq List.length_replicate.symm)⟩

end RpcGateway.Web
