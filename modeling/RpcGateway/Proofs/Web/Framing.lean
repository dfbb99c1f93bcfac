import RpcGateway.Proofs.Text.Base64
import RpcGateway.Proofs.Web.Records
import RpcGateway.Web.Body
/-!
# Reading frames back

A frame that fits its length prefix is written as one record, and the records of several frames are read
as these frames. So the body of an answer, of either encoding, says again what the backend said.
-/
namespace RpcGateway.Web

def Frame.flag : Frame → UInt8
  | .data _ => plainFlag
  | .trailers _ => trailersFlag

def Frame.payload : Frame → Bytes
  | .data payload => payload
  | .trailers payload => payload

def Frame.record (f : Frame) : Bytes :=
  f.flag :: lengthBytes f.payload.length ++ f.payload

/-- The length of what a frame carries can be written in four bytes. -/
def Frame.Fits (f : Frame) : Prop :=
  f.payload.length < 0x100000000

instance (f : Frame) : Decidable f.Fits :=
  inferInstanceAs (Decidable (f.payload.length < 0x100000000))

theorem writeFrame_eq_record {f : Frame} (h : f.Fits) :
    writeFrame f.flag f.payload = .ok f.record :=
  writeFrame_eq_bytes (r := ⟨f.flag, f.payload⟩) h

private theorem Frame.asRecord (f : Frame) :
    ¬ Record.IsCompressed ⟨f.flag, f.payload⟩ ∧ Record.frame ⟨f.flag, f.payload⟩ = f := by
  cases f with
  | data payload =>
    have hplain : plainFlag.toNat.testBit 7 = false ∧ plainFlag.toNat.testBit 0 = false := by decide
    simp [Record.IsCompressed, Record.frame, flag, Frame.payload, hplain]
  | trailers payload =>
    have hlast : trailersFlag.toNat.testBit 7 = true := by decide
    simp [Record.IsCompressed, Record.frame, flag, Frame.payload, hlast]

theorem readFrames_record {f : Frame} (h : f.Fits) (rest : Bytes) :
    readFrames (f.record ++ rest) = (readFrames rest).map (f :: ·) := by
  have hread := readFrames_bytes_append (r := ⟨f.flag, f.payload⟩) h rest
  rwa [if_neg f.asRecord.1, f.asRecord.2] at hread

theorem readFrames_records {fs : List Frame} (h : ∀ f ∈ fs, f.Fits) :
    readFrames (fs.flatMap Frame.record) = .ok fs := by
  induction fs with
  | nil => rw [List.flatMap_nil, readFrames]
  | cons f rest ih =>
    rw [List.flatMap_cons, readFrames_record (h f List.mem_cons_self),
      ih fun g hg => h g (List.mem_cons_of_mem f hg)]
    rfl

def framesOf : Except Status Bytes → List Frame
  | .ok message => [.data message, .trailers (Trailers.block Status.success)]
  | .error status => [.trailers (Trailers.block status)]

theorem answerFrames_eq {result : Except Status Bytes} (h : ∀ f ∈ framesOf result, f.Fits) :
    answerFrames result = .ok ((framesOf result).flatMap Frame.record) := by
  cases result with
  | ok message =>
    have hdata := writeFrame_eq_record (h (.data message) (by simp [framesOf]))
    have hlast := writeFrame_eq_record
      (h (.trailers (Trailers.block Status.success)) (by simp [framesOf]))
    simp only [Frame.flag, Frame.payload] at hdata hlast
    rw [answerFrames, hdata, hlast, framesOf, List.flatMap_cons, List.flatMap_singleton]
    rfl
  | error status =>
    have hlast := writeFrame_eq_record (h (.trailers (Trailers.block status)) (by simp [framesOf]))
    simp only [Frame.flag, Frame.payload] at hlast
    rw [answerFrames, hlast, framesOf, List.flatMap_singleton]

def Encoding.toBinary : Encoding → Bytes → Except Base64.Error Bytes
  | .binary, body => .ok body
  | .text, body => Base64.decode body

/-- An answer whose frames fit is written as a body of which the binary form is read as these frames. -/
theorem answerBody_reads (encoding : Encoding) {result : Except Status Bytes}
    (h : ∀ f ∈ framesOf result, f.Fits) :
    ∃ body bytes, answerBody encoding result = .ok body ∧ encoding.toBinary body = .ok bytes ∧
      readFrames bytes = .ok (framesOf result) := by
  have hwritten := answerFrames_eq h
  have hread := readFrames_records h
  cases encoding with
  | binary => exact ⟨_, _, by rw [answerBody, hwritten]; rfl, rfl, hread⟩
  | text => exact ⟨_, _, by rw [answerBody, hwritten]; rfl, Base64.decode_encode _, hread⟩

end RpcGateway.Web
