import RpcGateway.Gateway.Protocol
/-!
# Content types

What a content type selects, against the grammar of the web protocol: the media type of an encoding, alone
or with a format behind a plus sign. Every media type of the grammar selects its encoding. But only the
beginning of a media type is looked at, so a longer name that is none of them selects an encoding as well,
and its request is not relayed.
-/
namespace RpcGateway.Web.Encoding

/-- What may stand behind the media type of an encoding: nothing, or a plus sign and a format. -/
inductive IsSuffix : List Char → Prop
  | none : IsSuffix []
  | format (c : Char) (more : List Char) : IsSuffix ('+' :: c :: more)

/-- Whether a media type is that of an encoding, alone or with a format. -/
def IsNamedBy (kind : Encoding) (mediaType : List Char) : Prop :=
  ∃ suffix, IsSuffix suffix ∧ mediaType = kind.contentType.toList ++ suffix

variable {kind : Encoding} {mediaType : List Char} {value : String}

private theorem text_eq_binary_append :
    Encoding.text.contentType.toList = Encoding.binary.contentType.toList ++ "-text".toList := by
  decide

private theorem binary_isPrefix (kind : Encoding) :
    Encoding.binary.contentType.toList <+: kind.contentType.toList := by
  cases kind with
  | binary => exact List.prefix_refl _
  | text => exact text_eq_binary_append ▸ List.prefix_append _ _

private theorem IsNamedBy.isPrefix (h : kind.IsNamedBy mediaType) :
    kind.contentType.toList <+: mediaType := by
  obtain ⟨suffix, -, rfl⟩ := h
  exact List.prefix_append _ _

/-- Behind the binary media type a minus sign is no suffix, so the textual one does not stand there. -/
private theorem IsNamedBy.not_text (h : IsNamedBy .binary mediaType) :
    ¬Encoding.text.contentType.toList <+: mediaType := by
  obtain ⟨suffix, hsuffix, rfl⟩ := h
  rw [text_eq_binary_append, List.prefix_append_right_inj]
  cases hsuffix with
  | none => simp
  | format c more => simp

private theorem ofContentType?_eq_some_iff :
    ofContentType? value = some kind ↔ kind.contentType.toList <+: essence value ∧
      (kind = .binary → ¬Encoding.text.contentType.toList <+: essence value) := by
  rw [ofContentType?]
  simp only [List.isPrefixOf_iff_prefix]
  by_cases htext : Encoding.text.contentType.toList <+: essence value
  · have hbinary := (binary_isPrefix .text).trans htext
    cases kind <;> simp [htext, hbinary]
  · by_cases hbinary : Encoding.binary.contentType.toList <+: essence value
    · cases kind <;> simp [htext, hbinary]
    · cases kind <;> simp [htext, hbinary]

private theorem ofContentType?_eq_none_iff :
    ofContentType? value = none ↔ ¬Encoding.binary.contentType.toList <+: essence value := by
  rw [Option.eq_none_iff_forall_ne_some]
  constructor
  · intro hnone hbinary
    by_cases htext : Encoding.text.contentType.toList <+: essence value
    · exact hnone .text (ofContentType?_eq_some_iff.mpr ⟨htext, by simp⟩)
    · exact hnone .binary (ofContentType?_eq_some_iff.mpr ⟨hbinary, fun _ => htext⟩)
  · intro hbinary kind hsome
    apply hbinary
    exact (binary_isPrefix kind).trans (ofContentType?_eq_some_iff.mp hsome).1

private theorem ofContentType?_of_isNamedBy (h : kind.IsNamedBy (essence value)) :
    ofContentType? value = some kind := by
  apply ofContentType?_eq_some_iff.mpr
  refine ⟨h.isPrefix, ?_⟩
  rintro rfl
  exact h.not_text

variable (hnamed : Encoding.binary.contentType.toList <+: essence value →
  ∃ kind : Encoding, kind.IsNamedBy (essence value))
include hnamed

private theorem isNamedBy_of_ofContentType? (h : ofContentType? value = some kind) :
    kind.IsNamedBy (essence value) := by
  obtain ⟨other, hother⟩ :=
    hnamed ((binary_isPrefix kind).trans (ofContentType?_eq_some_iff.mp h).1)
  have hsame : some other = some kind := (ofContentType?_of_isNamedBy hother).symm.trans h
  rwa [Option.some.inj hsame] at hother

private theorem ofContentType?_eq_none_iff_of_named :
    ofContentType? value = none ↔ ∀ kind : Encoding, ¬kind.IsNamedBy (essence value) := by
  constructor
  · intro hnone kind hkind
    rw [ofContentType?_of_isNamedBy hkind] at hnone
    cases hnone
  · intro hother
    apply ofContentType?_eq_none_iff.mpr
    intro hbinary
    obtain ⟨kind, hkind⟩ := hnamed hbinary
    exact hother kind hkind

end RpcGateway.Web.Encoding

namespace RpcGateway.Gateway

open Web (Encoding)
open Web.Encoding

/-- The content type of a message, if it has one that can be shown. -/
def contentTypeOf (headers : Headers) : Option String :=
  (headers.get? Header.contentType).bind (·.text?)

private theorem ofHeaders_eq_twirp_iff {headers : Headers} {value : String}
    (h : contentTypeOf headers = some value) :
    Protocol.ofHeaders headers = .twirp ↔ ofContentType? value = none := by
  rw [contentTypeOf] at h
  rw [Protocol.ofHeaders, h, Option.bind_some]
  cases ofContentType? value <;> simp

/-- A content type is detected by the grammar: it selects the encoding that its media type names, and one
that names none leaves the request to be relayed. -/
structure IsDetected (value : String) : Prop where
  encoding : ∀ kind, ofContentType? value = some kind ↔ kind.IsNamedBy (essence value)
  other : (∀ kind : Encoding, ¬kind.IsNamedBy (essence value)) → ofContentType? value = none
  protocol : ∀ headers, contentTypeOf headers = some value →
    (Protocol.ofHeaders headers = .twirp ↔ ∀ kind : Encoding, ¬kind.IsNamedBy (essence value))

/-- A content type that names an encoding selects it. And a content type is detected by the grammar exactly
if its media type does not begin like the two of the web protocol or is one of them. -/
theorem isDetected_iff (value : String) :
    (∀ kind : Encoding, kind.IsNamedBy (essence value) → ofContentType? value = some kind) ∧
      (IsDetected value ↔ (Encoding.binary.contentType.toList <+: essence value →
        ∃ kind : Encoding, kind.IsNamedBy (essence value))) := by
  refine ⟨fun kind => ofContentType?_of_isNamedBy, ?_⟩
  constructor
  · intro hdetected hbinary
    cases hselected : ofContentType? value with
    | none => exact absurd hbinary (ofContentType?_eq_none_iff.mp hselected)
    | some kind => exact ⟨kind, (hdetected.encoding kind).mp hselected⟩
  · intro hnamed
    have hnone := ofContentType?_eq_none_iff_of_named hnamed
    refine ⟨fun kind => ⟨isNamedBy_of_ofContentType? hnamed, ofContentType?_of_isNamedBy⟩, hnone.mpr, ?_⟩
    intro headers hvalue
    rw [ofHeaders_eq_twirp_iff hvalue, hnone]

/-- A media type of its own that begins like one of the web protocol is taken for it. -/
theorem not_isDetected_longerName :
    Protocol.ofHeaders (Headers.empty.append Header.contentType
        (Header.Value.ofText "application/grpc-websocket; v=1")) = .web .binary ∧
      ¬IsDetected "application/grpc-websocket; v=1" := by
  have hessence : essence "application/grpc-websocket; v=1" =
      Encoding.binary.contentType.toList ++ "socket".toList := by
    decide +kernel
  refine ⟨by decide +kernel, ?_⟩
  rw [(isDetected_iff _).2, hessence]
  intro hnamed
  obtain ⟨kind, suffix, hsuffix, heq⟩ := hnamed (List.prefix_append _ _)
  cases kind with
  | binary =>
    rw [List.append_cancel_left_eq] at heq
    subst heq
    cases hsuffix
  | text =>
    rw [text_eq_binary_append, List.append_assoc, List.append_cancel_left_eq] at heq
    cases heq

end RpcGateway.Gateway
