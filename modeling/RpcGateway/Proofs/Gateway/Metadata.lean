import RpcGateway.Call
import RpcGateway.Gateway.Metadata
import RpcGateway.Proofs.Text.Ascii
/-!
# Forwarded metadata is valid

Every header that is forwarded can be sent as metadata of a call: its name is read as itself, and its value
is shown as text from which the value is read again.
-/
namespace RpcGateway

namespace Header

private theorem toLower_of_isNameChar {c : Char} (h : isNameChar c = true) : c.toLower = c := by
  have hlower : ¬ (65 ≤ c.val ∧ c.val ≤ 90) := by
    rintro ⟨hlow, hhigh⟩
    have checked : ∀ n < 91, 65 ≤ n → isNameChar (Char.ofNat n) = false := by decide
    rw [← Char.ofNat_toNat c, checked c.toNat (Nat.lt_succ_of_le hhigh) hlow] at h
    cases h
  exact dif_neg hlower

private theorem Name.ofText?_text (name : Name) : Name.ofText? name.text = some name := by
  have hvalid := name.valid
  simp only [isName, Bool.and_eq_true] at hvalid
  have hsame : name.text.toList.map Char.toLower = name.text.toList := by
    rw [List.map_congr_left fun c hc => toLower_of_isNameChar (List.all_eq_true.mp hvalid.2 c hc)]
    exact List.map_id _
  have htext : String.ofList (name.text.toList.map Char.toLower) = name.text := by
    rw [hsame, String.ofList_toList]
  simp only [Name.ofText?, htext, name.valid, dif_pos]

private theorem Value.ofBytes?_bytes (value : Value) : Value.ofBytes? value.bytes = some value :=
  dif_pos value.valid

private theorem Value.bytesOf_text {value : Value} {text : String} (h : value.text? = some text) :
    bytesOf text = value.bytes := by
  rw [Value.text?, Option.ite_none_right_eq_some] at h
  obtain ⟨hshown, htext⟩ := h
  cases htext
  apply bytesOf_lossyText
  intro b hb
  have checked : ∀ b : UInt8, isTextByte b = true → b < 0x80 := by
    intro b h
    simp only [isTextByte, Bool.or_eq_true, beq_iff_eq, Bool.and_eq_true, decide_eq_true_eq] at h
    rcases h with rfl | ⟨-, h⟩
    · decide
    · exact Nat.lt_trans h (by decide)
  exact checked b (List.all_eq_true.mp hshown b hb)

end Header

namespace Call

theorem readKey_text {name : Header.Name} (h : isBinaryName name = false) :
    readKey name.text = .ok name := by
  simp [readKey, Header.Name.ofText?_text, h]

theorem readValue_text {value : Header.Value} {text : String} (h : value.text? = some text)
    (key : String) : readValue key text = .ok value := by
  rw [readValue, Header.Value.bytesOf_text h, Header.Value.ofBytes?_bytes]

def ReadsAsHeader (pair : String × String) : Prop :=
  ∃ name value, readKey pair.1 = .ok name ∧ readValue pair.1 pair.2 = .ok value

private theorem addMetadata_ok {pairs : List (String × String)} (h : ∀ pair ∈ pairs, ReadsAsHeader pair)
    (metadata : Headers) : ∃ added, addMetadata metadata pairs = .ok added := by
  induction pairs generalizing metadata with
  | nil => exact ⟨metadata, rfl⟩
  | cons pair rest ih =>
    obtain ⟨name, value, hkey, hvalue⟩ := h pair List.mem_cons_self
    obtain ⟨added, hadded⟩ :=
      ih (fun other hother => h other (List.mem_cons_of_mem pair hother)) (metadata.insert name value)
    refine ⟨added, ?_⟩
    rw [addMetadata, hkey, hvalue]
    exact hadded

end Call

namespace Gateway

theorem isBinaryName_of_isForwarded {name : Header.Name} (h : isForwarded name = true) :
    Call.isBinaryName name = false := by
  simp only [isForwarded, Bool.and_eq_true, Bool.not_eq_true'] at h
  exact h.2

private theorem readsAsHeader_metadataOf (headers : Headers) (targetName : Header.Name) :
    ∀ pair ∈ metadataOf headers targetName, Call.ReadsAsHeader pair := by
  intro pair hpair
  obtain ⟨⟨name, value⟩, -, hmade⟩ := List.mem_filterMap.mp hpair
  rw [Option.ite_none_right_eq_some, Option.map_eq_some_iff] at hmade
  obtain ⟨⟨-, hforwarded⟩, text, htext, rfl⟩ := hmade
  exact ⟨name, value, Call.readKey_text (isBinaryName_of_isForwarded hforwarded),
    Call.readValue_text htext name.text⟩

/-- The metadata that is forwarded with a call never makes it fail. -/
theorem addMetadata_metadataOf (headers : Headers) (targetName : Header.Name) :
    ∃ metadata, Call.addMetadata .empty (metadataOf headers targetName) = .ok metadata :=
  Call.addMetadata_ok (readsAsHeader_metadataOf headers targetName) .empty

end Gateway

end RpcGateway
