import RpcGateway.Proofs.Web.Framing
import RpcGateway.Wire.Reader
/-!
# Payloads of requests

A binary request is one frame or the message alone. The first byte tells them apart: a frame begins with a
zero byte, a message with the key of a field, whose number is not zero. On bodies that begin with a frame
the payload is what reading the frames gives, and both readings object to the same ends.
-/
namespace RpcGateway.Web

/-- Bytes that begin with the key of a field, the number of which is not zero. -/
def BeginsWithField (m : Bytes) : Prop :=
  ∃ key rest, Wire.readVarint m = .ok (key, rest) ∧ key / 8 ≠ 0

private theorem beginsWithField_of_readKey {m : Bytes} {field : Nat × Wire.Layout × Wire.Shorter m}
    (h : Wire.readKey m = .ok field) : BeginsWithField m := by
  rw [Wire.readKey] at h
  cases hvarint : Wire.readVarint m with
  | error e =>
    rw [hvarint] at h
    cases h
  | ok found =>
    rw [hvarint] at h
    refine ⟨found.1, found.2, hvarint, fun hzero => ?_⟩
    simp only [bind, Except.bind, hzero] at h
    split at h
    · cases h
    · split at h <;> cases h

/-- A first byte of 0 or 1 is a whole key, that of a field with the number zero. -/
theorem BeginsWithField.byte {b : UInt8} {more : Bytes} (h : BeginsWithField (b :: more)) :
    b ≠ 0x00 ∧ b ≠ 0x01 := by
  obtain ⟨key, rest, hread, hnumber⟩ := h
  rw [Wire.readVarint, Wire.takeVarint?] at hread
  constructor
  · rintro rfl
    cases hread
    exact hnumber rfl
  · rintro rfl
    cases hread
    exact hnumber rfl

private theorem unframe_of_ne {b : UInt8} (h0 : b ≠ 0x00) (h1 : b ≠ 0x01) (more : Bytes) :
    unframe (b :: more) = .ok (b :: more) := by
  rw [unframe.eq_def]
  split <;> simp_all

private theorem unframe_record_append {payload : Bytes} (h : (Frame.data payload).Fits) (rest : Bytes) :
    unframe ((Frame.data payload).record ++ rest) =
      if rest = [] then .ok payload
      else .error (.surplus payload.length (payload ++ rest).length) := by
  have hlength : payload.length < 0x100000000 := h
  simp only [Frame.record, Frame.flag, Frame.payload, lengthBytes, List.cons_append,
    List.nil_append, plainFlag]
  rw [unframe]
  simp only [declaredLength_lengthBytes hlength]
  cases rest with
  | nil => simp
  | cons b more => simp

theorem Offends.unframe {body : Bytes} {e : BodyError} (hfirst : body.head? = some plainFlag)
    (h : Offends body e) : unframe body = .error e := by
  cases h with
  | shortHead _ begun short =>
    match body, hfirst, short with
    | [_], rfl, _ => rfl
    | [_, _], rfl, _ => rfl
    | [_, _, _], rfl, _ => rfl
    | [_, _, _, _], rfl, _ => rfl
    | _ :: _ :: _ :: _ :: _ :: rest, _, short =>
      simp only [headerLength, List.length_cons] at short
      omega
  | shortPayload flag a b c d rest short =>
    obtain rfl : flag = 0x00 := Option.some.inj hfirst
    rw [Web.unframe, if_pos short]
  | compressed r rest fits marked =>
    have hplain : r.flag = 0x00 := Option.some.inj hfirst
    rw [Record.IsCompressed, hplain] at marked
    exact absurd marked.2 (by decide)

private theorem first_frame {body : Bytes} (hfirst : body.head? = some plainFlag) :
    (∃ payload rest, (Frame.data payload).Fits ∧ body = (Frame.data payload).record ++ rest) ∨
      ∃ e, Offends body e := by
  rcases first_record body with rfl | ⟨⟨flag, payload⟩, rest, hreadable, rfl⟩ | hoffends
  · cases hfirst
  · obtain rfl : flag = plainFlag := Option.some.inj hfirst
    exact .inl ⟨payload, rest, hreadable.fits, rfl⟩
  · exact .inr hoffends

private theorem readFrames_eq_nil {bs : Bytes} (h : readFrames bs = .ok []) : bs = [] := by
  obtain ⟨records, hconsists, hnil⟩ := readFrames_eq_ok_iff.mp h
  rw [hconsists.bytes, List.map_eq_nil_iff.mp hnil.symm, List.flatMap_nil]

private theorem unframe_eq_ok_iff {body payload : Bytes} (hfirst : body.head? = some plainFlag) :
    unframe body = .ok payload ↔ readFrames body = .ok [.data payload] := by
  rcases first_frame hfirst with ⟨found, rest, hfits, rfl⟩ | ⟨e, hoffends⟩
  · rw [unframe_record_append hfits, readFrames_record hfits]
    by_cases hrest : rest = []
    · rw [if_pos hrest, hrest, readFrames_nil]
      simp [Except.map]
    · rw [if_neg hrest]
      constructor
      · intro h
        cases h
      · intro h
        cases hread : readFrames rest with
        | error e =>
          rw [hread] at h
          cases h
        | ok frames =>
          rw [hread] at h
          cases h
          exact absurd (readFrames_eq_nil hread) hrest
  · rw [hoffends.unframe hfirst, hoffends.readFrames]
    constructor <;> intro h <;> cases h

private theorem unframe_eq_surplus_iff {body : Bytes} {declared available : Nat} :
    unframe body = .error (.surplus declared available) ↔
      ∃ payload rest, (Frame.data payload).Fits ∧ body = (Frame.data payload).record ++ rest ∧
        rest ≠ [] ∧ declared = payload.length ∧ available = (payload ++ rest).length := by
  constructor
  · intro h
    have hfirst : body.head? = some plainFlag := by
      rw [unframe.eq_def] at h
      split at h
      · rfl
      · rfl
      · cases h
      · cases h
    rcases first_frame hfirst with ⟨payload, rest, hfits, rfl⟩ | ⟨e, hoffends⟩
    · rw [unframe_record_append hfits] at h
      by_cases hrest : rest = []
      · rw [if_pos hrest] at h
        cases h
      · rw [if_neg hrest] at h
        cases h
        exact ⟨payload, rest, hfits, rfl, hrest, rfl, rfl⟩
    · rw [hoffends.unframe hfirst] at h
      cases h
      cases hoffends
  · rintro ⟨payload, rest, hfits, rfl, hrest, rfl, rfl⟩
    rw [unframe_record_append hfits, if_neg hrest]

private theorem offends_iff {body : Bytes} {e : BodyError} (hfirst : body.head? = some plainFlag) :
    Offends body e ↔ unframe body = .error e ∧ readFrames body = .error e := by
  refine ⟨fun h => ⟨h.unframe hfirst, h.readFrames⟩, fun ⟨hunframe, hread⟩ => ?_⟩
  rcases first_frame hfirst with ⟨payload, rest, hfits, rfl⟩ | ⟨e', hoffends⟩
  · rw [unframe_record_append hfits] at hunframe
    obtain ⟨records, last, -, -, hlast⟩ := readFrames_eq_error_iff.mp hread
    by_cases hrest : rest = []
    · rw [if_pos hrest] at hunframe
      cases hunframe
    · rw [if_neg hrest] at hunframe
      cases hunframe
      cases hlast
  · rw [hoffends.unframe hfirst] at hunframe
    exact Except.error.inj hunframe ▸ hoffends

private theorem appendFrame_data {payload : Bytes} (h : (Frame.data payload).Fits) (buffer : Bytes) :
    appendFrame buffer plainFlag payload = (buffer ++ (Frame.data payload).record, .ok ()) := by
  have hwritten : writeFrame plainFlag payload = .ok (Frame.data payload).record :=
    writeFrame_eq_record h
  rw [appendFrame, hwritten]

/-- The payload of a frame is found, and a message that comes without a frame is left as it is. A body
that begins like a frame has the payload that the frames it is read as say, and ends that offend are
reported by both readings and in the same way. A surplus is reported exactly for a whole frame with
something after it. -/
theorem requestPayload_unambiguous :
    (∀ payload : Bytes, payload.length < 0x100000000 →
      ∃ body, appendFrame [] plainFlag payload = (body, .ok ()) ∧
        requestPayload .binary body = .ok payload) ∧
    (∀ m, m = [] ∨ BeginsWithField m → requestPayload .binary m = .ok m) ∧
    (∀ m field, Wire.readKey m = .ok field → requestPayload .binary m = .ok m) ∧
    (∀ body, body.head? = some plainFlag →
      (∀ payload, requestPayload .binary body = .ok payload ↔
        readFrames body = .ok [.data payload]) ∧
      (∀ e, Offends body e ↔
        requestPayload .binary body = .error e ∧ readFrames body = .error e)) ∧
    (∀ body declared available,
      requestPayload .binary body = .error (.surplus declared available) ↔
        ∃ payload rest, (Frame.data payload).Fits ∧ body = (Frame.data payload).record ++ rest ∧
          rest ≠ [] ∧ declared = payload.length ∧ available = (payload ++ rest).length) := by
  have hbare : ∀ m, m = [] ∨ BeginsWithField m → unframe m = .ok m := by
    rintro (_ | ⟨b, more⟩) (hnil | hfield)
    · rfl
    · rfl
    · cases hnil
    · exact unframe_of_ne hfield.byte.1 hfield.byte.2 more
  refine ⟨fun payload hfits => ?_, hbare, fun m field hkey => ?_, fun body hfirst => ?_, ?_⟩
  · refine ⟨_, appendFrame_data hfits [], ?_⟩
    have hframe := unframe_record_append hfits []
    rwa [List.append_nil, if_pos rfl] at hframe
  · exact hbare m (.inr (beginsWithField_of_readKey hkey))
  · exact ⟨fun payload => unframe_eq_ok_iff hfirst, fun e => offends_iff hfirst⟩
  · exact fun body declared available => unframe_eq_surplus_iff

/-- The key of a field takes two bytes from the number 16 on. -/
def longKey : Bytes := [0x82, 0x01, 0x00]

theorem requestPayload_unambiguous_short :
    (∃ body, appendFrame [] plainFlag [7] = (body, .ok ()) ∧
      requestPayload .binary body = .ok [7]) ∧
    requestPayload .binary longKey = .ok longKey ∧
    readFrames [0, 0, 0, 0, 1, 7] = .ok [.data [7]] ∧
    requestPayload .binary [0, 0, 0, 0, 1] = .error (.shortPayload 1 0) ∧
    requestPayload .binary [0, 0, 0, 0, 1, 7, 9] = .error (.surplus 1 2) := by
  obtain ⟨hframed, hbare, -, hfirst, hsurplus⟩ := requestPayload_unambiguous
  have hfield : BeginsWithField longKey := ⟨130, ⟨[0x00], by decide⟩, rfl, by decide⟩
  have hshort : Offends [0, 0, 0, 0, 1] (.shortPayload 1 0) :=
    .shortPayload 0 0 0 0 1 [] (by decide)
  have hwhole : requestPayload .binary [0, 0, 0, 0, 1, 7] = .ok [7] := by
    simp [requestPayload, unframe, declaredLength]
  exact ⟨hframed [7] (by decide), hbare _ (.inr hfield), ((hfirst _ rfl).1 _).mp hwhole,
    (((hfirst [0, 0, 0, 0, 1] rfl).2 _).mp hshort).1,
    (hsurplus _ 1 2).mpr ⟨[7], [9], by decide, rfl, by decide, rfl, rfl⟩⟩

end RpcGateway.Web
