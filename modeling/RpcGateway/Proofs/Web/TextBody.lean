import RpcGateway.Proofs.Text.Base64.Canonical
import RpcGateway.Proofs.Text.Blank
import RpcGateway.Proofs.Web.Framing
/-!
# Text bodies

A body in text is a binary body in its Base64 form. Requests may have blanks around the form and nothing else;
what is said of them then is what is said of the binary body. Answers are the form of the binary answer, and
the frames of that are those of the result.
-/
namespace RpcGateway.Web

open Outcome (bind_eq_ok_iff)

private theorem isBodyBlank_of_isFormOf {text bytes : Bytes} (h : Base64.IsFormOf text bytes) {b : UInt8}
    (hb : b ∈ text) : isBodyBlank b = false := by
  obtain ⟨letters, zeros, padding, h⟩ := h
  have checked : Base64.alphabet.all (!isBodyBlank ·) = true := by decide +kernel
  rw [h.written, List.mem_append] at hb
  rcases hb with hletter | hpad
  · simpa using List.all_eq_true.mp checked b (h.known b hletter)
  · rw [List.eq_of_mem_replicate hpad]
    rfl

private theorem trimBy_isFormOf {text bytes : Bytes} (h : Base64.IsFormOf text bytes) :
    Blank.trimBy isBodyBlank text = text := by
  rw [Blank.trimBy_eq_self_iff]
  exact ⟨fun b hb => isBodyBlank_of_isFormOf h (List.mem_of_mem_head? hb),
    fun b hb => isBodyBlank_of_isFormOf h (List.mem_of_getLast? hb)⟩

private theorem requestPayload_text (body : Bytes) :
    requestPayload .text body =
      ((Base64.decode (Blank.trimBy isBodyBlank body)).mapError .base64).bind unframe := rfl

private theorem requestPayload_text_eq_ok_iff {body payload : Bytes} :
    requestPayload .text body = .ok payload ↔
      ∃ bytes, Base64.IsFormOf (Blank.trimBy isBodyBlank body) bytes ∧
        requestPayload .binary bytes = .ok payload := by
  rw [requestPayload_text]
  simp only [← Base64.decode_eq_ok_iff, ← Outcome.mapError_eq_ok_iff (f := BodyError.base64)]
  exact bind_eq_ok_iff

private theorem requestPayload_text_surrounded {text bytes before after : Bytes}
    (h : Base64.IsFormOf text bytes) (hbefore : ∀ b ∈ before, isBodyBlank b = true)
    (hafter : ∀ b ∈ after, isBodyBlank b = true) :
    requestPayload .text (before ++ text ++ after) = requestPayload .binary bytes := by
  rw [requestPayload_text, Blank.trimBy_surrounded hbefore hafter, trimBy_isFormOf h,
    Base64.decode_eq_ok_iff.mpr h]
  rfl

private theorem unframe_ne_base64 (body : Bytes) (reason : Base64.Error) :
    unframe body ≠ .error (.base64 reason) := by
  rw [unframe.eq_def]
  split
  · simp only []
    split
    · simp
    · split <;> simp
  all_goals simp

private theorem requestPayload_text_eq_base64_iff {body : Bytes} :
    (∃ reason, requestPayload .text body = .error (.base64 reason)) ↔
      ∀ bytes, ¬ Base64.IsFormOf (Blank.trimBy isBodyBlank body) bytes := by
  rw [requestPayload_text]
  simp only [← Base64.decode_eq_ok_iff]
  cases Base64.decode (Blank.trimBy isBodyBlank body) with
  | error reason =>
    constructor
    · intro _ bytes h
      cases h
    · intro _
      exact ⟨reason, rfl⟩
  | ok bytes =>
    constructor
    · rintro ⟨reason, h⟩
      exact absurd h (unframe_ne_base64 bytes reason)
    · intro h
      exact absurd rfl (h bytes)

private theorem answerBody_text (result : Except Status Bytes) :
    answerBody .text result = (answerBody .binary result).map Base64.encode := by
  rw [answerBody, answerBody]
  cases answerFrames result <;> rfl

private theorem answerBody_binary (result : Except Status Bytes) :
    answerBody .binary result = answerFrames result := by
  rw [answerBody]
  cases answerFrames result <;> rfl

private theorem writeFrame_eq_ok {flag : UInt8} {payload record : Bytes}
    (h : writeFrame flag payload = .ok record) : payload.length < 0x100000000 := by
  rw [writeFrame] at h
  split at h
  · assumption
  · cases h

private theorem answerBody_binary_eq_ok_iff {result : Except Status Bytes} {body : Bytes} :
    answerBody .binary result = .ok body ↔
      (∀ f ∈ framesOf result, f.Fits) ∧ body = (framesOf result).flatMap Frame.record := by
  rw [answerBody_binary]
  constructor
  · intro h
    have hfits : ∀ f ∈ framesOf result, f.Fits := by
      cases result with
      | ok message =>
        obtain ⟨first, hfirst, h⟩ := bind_eq_ok_iff.mp h
        obtain ⟨last, hlast, -⟩ := bind_eq_ok_iff.mp h
        rintro f (_ | ⟨_, _ | ⟨_, hf⟩⟩)
        · exact writeFrame_eq_ok hfirst
        · exact writeFrame_eq_ok hlast
        · cases hf
      | error status =>
        rintro f (_ | ⟨_, hf⟩)
        · exact writeFrame_eq_ok h
        · cases hf
    rw [answerFrames_eq hfits] at h
    exact ⟨hfits, (Except.ok.inj h).symm⟩
  · rintro ⟨hfits, rfl⟩
    exact answerFrames_eq hfits

/-- A text body is a binary body in its Base64 form, which is the only one that bytes have, and has no other
bytes. A request has the payload of the binary body of which it is the form, but for blanks around it, or
the same fault; one that is no form is refused for that. An answer is the form of the binary answer, if its
frames can be written, and what is read from this are the frames of the result. -/
theorem text_isFormOf_binary :
    (∀ body payload, requestPayload .text body = .ok payload ↔
      ∃ bytes, Base64.IsFormOf (Blank.trimBy isBodyBlank body) bytes ∧
        requestPayload .binary bytes = .ok payload) ∧
    (∀ text bytes bytes', Base64.IsFormOf text bytes → Base64.IsFormOf text bytes' →
      bytes = bytes') ∧
    (∀ body, (∃ reason, requestPayload .text body = .error (.base64 reason)) ↔
      ∀ bytes, ¬ Base64.IsFormOf (Blank.trimBy isBodyBlank body) bytes) ∧
    (∀ bytes before after, (∀ b ∈ before, isBodyBlank b = true) →
      (∀ b ∈ after, isBodyBlank b = true) →
      requestPayload .text (before ++ Base64.encode bytes ++ after) =
        requestPayload .binary bytes) ∧
    (∀ text bytes, Base64.IsFormOf text bytes ↔ text = Base64.encode bytes) ∧
    (∀ result, answerBody .text result = (answerBody .binary result).map Base64.encode) ∧
    (∀ result body, answerBody .binary result = .ok body ↔
      (∀ f ∈ framesOf result, f.Fits) ∧ body = (framesOf result).flatMap Frame.record) ∧
    (∀ result body, answerBody .binary result = .ok body →
      readFrames body = .ok (framesOf result)) := by
  refine ⟨fun _ _ => requestPayload_text_eq_ok_iff, ?_, fun _ => requestPayload_text_eq_base64_iff,
    ?_, fun _ _ => Base64.isFormOf_iff, answerBody_text, fun _ _ => answerBody_binary_eq_ok_iff, ?_⟩
  · intro text bytes bytes' h h'
    have hread := (Base64.decode_eq_ok_iff.mpr h).symm.trans (Base64.decode_eq_ok_iff.mpr h')
    exact Except.ok.inj hread
  · intro bytes before after hbefore hafter
    exact requestPayload_text_surrounded (Base64.isFormOf_encode bytes) hbefore hafter
  · intro result body h
    obtain ⟨hfits, rfl⟩ := answerBody_binary_eq_ok_iff.mp h
    exact readFrames_records hfits

/-- A frame with one byte in Base64, between blanks. -/
def blankedBody : Bytes := bytesOf " \tAAAAAAEH\r\n"

/-- The last letter has bits that no byte takes. -/
def uncanonicalBody : Bytes := bytesOf "AB=="

theorem text_isFormOf_binary_blanked :
    requestPayload .text blankedBody = .ok [7] ∧
      (∀ bytes, Base64.IsFormOf (bytesOf "AAAAAAEH") bytes → bytes = [0, 0, 0, 0, 1, 7]) ∧
      (∀ bytes, ¬ Base64.IsFormOf uncanonicalBody bytes) ∧
      requestPayload .text (bytesOf "\n" ++ Base64.encode [0, 0, 0, 0, 2, 7] ++ bytesOf " ") =
        .error (.shortPayload 2 1) ∧
      ∃ body, answerBody .binary (.ok [7]) = .ok body ∧
        answerBody .text (.ok [7]) = .ok (Base64.encode body) ∧
        readFrames body = .ok [.data [7], .trailers (Trailers.block Status.success)] := by
  obtain ⟨hpayload, hunique, hrefused, haround, hform, htext, hwritten, hread⟩ :=
    text_isFormOf_binary
  have hspelled : Base64.IsFormOf (bytesOf "AAAAAAEH") [0, 0, 0, 0, 1, 7] :=
    (hform _ _).mpr (by decide +kernel)
  have htrimmed : Blank.trimBy isBodyBlank blankedBody = bytesOf "AAAAAAEH" := by decide +kernel
  have hframed : requestPayload .binary [0, 0, 0, 0, 1, 7] = .ok [7] := by
    simp [requestPayload, unframe, declaredLength]
  have hfits : (framesOf (.ok [7])).all (fun f => decide f.Fits) = true := by decide +kernel
  have hbody := (hwritten (.ok [7]) _).mpr ⟨by simpa using hfits, rfl⟩
  have hbefore : (bytesOf "\n").all isBodyBlank = true := by decide +kernel
  have hafter : (bytesOf " ").all isBodyBlank = true := by decide +kernel
  refine ⟨(hpayload _ _).mpr ⟨_, htrimmed ▸ hspelled, hframed⟩, fun _ h => hunique _ _ _ h hspelled,
    ?_, ?_, _, hbody, ?_, hread _ _ hbody⟩
  · exact (hrefused uncanonicalBody).mp ⟨_, rfl⟩
  · rw [haround _ _ _ (List.all_eq_true.mp hbefore) (List.all_eq_true.mp hafter)]
    simp [requestPayload, unframe, declaredLength]
  · rw [htext, hbody]
    rfl

end RpcGateway.Web
