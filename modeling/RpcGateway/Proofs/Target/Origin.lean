import RpcGateway.Endpoint
import RpcGateway.Proofs.Target.Encryption
import RpcGateway.Proofs.Text.Percent
/-!
# Origins read back

The origin of a target is a text again: connections read it as a URI, and it could be given as an address.
It reads back as the same place unless the host has lost a bracket, or has kept a percent sign without
them, when it was cut out of its authority, or unless the port makes the text too long for a URI.
-/
namespace RpcGateway.Target

open Outcome (mapError_eq_ok_iff)
open Uri (Authority isTooLong)

/-- The origin of a target is as good as its address. -/
structure ReadsBack (t : Target) : Prop where
  uri : ∃ u, Uri.ofText t.origin.toList = .ok u ∧ t.IsNamedBy u
  endpoint : ∀ address, Endpoint.ofTarget t ≠ .error (.badOrigin address)
  address : ∃ back, ofAddress t.origin = .ok back ∧ back.host = t.host ∧ back.port = t.port ∧
    back.isEncrypted = t.isEncrypted

variable {raw : String} {a : Authority} {t : Target}

/-! ### The origin as a URI -/

private theorem Reads.ofText_origin_ok_iff (h : Reads raw a t) {u : Uri} :
    Uri.ofText t.origin.toList = .ok u ↔
      (Authority.StandsAlone t.host.toList ∧ isTooLong t.origin.toList = false) ∧
        u = ⟨some t.webScheme, some ⟨t.authority.toList⟩, ⟨[], none⟩⟩ := by
  have hwhole : t.origin.toList = t.webScheme ++ "://".toList ++ (t.authority.toList ++ []) := by
    rw [toList_origin, List.append_nil]
  have hjoin : (∃ b, Authority.ofText t.authority.toList = .ok b) ↔
      Authority.StandsAlone t.host.toList := by
    rw [toList_authority, h.host_eq]
    exact Authority.ofText_join_iff h.ofText_eq (Numeral.isDigit_of_mem_toString t.port)
  have hempty (target : Uri.PathAndQuery) :
      Uri.PathAndQuery.ofText [] = .ok target ↔ target = ⟨[], none⟩ := by
    rw [Uri.PathAndQuery.ofText, Except.ok.injEq, eq_comm]
  have hnone : ∀ c ∈ ([] : List Char).head?, Uri.isTerminator c = true := by simp
  rw [hwhole, Uri.ofText_web_ok_iff t.isWebScheme_webScheme h.isWellFormed.authority hnone, hjoin]
  simp only [hempty, exists_eq_left, and_left_comm, and_assoc]

private theorem ofTarget_eq_badOrigin (h : ∀ u, Uri.ofText t.origin.toList ≠ .ok u) :
    Endpoint.ofTarget t = .error (.badOrigin t.raw) := by
  rw [Endpoint.ofTarget]
  cases huri : Uri.ofText t.origin.toList with
  | error e => rfl
  | ok u => exact absurd huri (h u)

private theorem ofTarget_ne_badOrigin {u : Uri} (h : Uri.ofText t.origin.toList = .ok u) (address : String) :
    Endpoint.ofTarget t ≠ .error (.badOrigin address) := by
  rw [Endpoint.ofTarget, h]
  simp only
  split <;> simp

/-! ### The origin as an address -/

private theorem isInk_of_isDigit {c : Char} (h : c.isDigit = true) : Percent.IsInk c := by
  have hrange : 48 ≤ c.toNat ∧ c.toNat ≤ 57 := by
    simpa [Char.isDigit, UInt32.le_iff_toNat_le] using h
  rw [Percent.IsInk]
  omega

private theorem getLast?_origin (t : Target) :
    t.origin.toList.getLast? = (toString t.port).toList.getLast? := by
  have hport := Numeral.toList_toString_ne_nil t.port
  have hsplit : t.origin.toList = (t.webScheme ++ "://".toList ++ t.host.toList ++ [':']) ++
      (toString t.port).toList := by
    rw [toList_origin, toList_authority]
    simp
  rw [hsplit, List.getLast?_append, Option.or_of_isSome]
  exact List.getLast?_isSome.mpr hport

private theorem trimmed_origin (t : Target) : Blank.trimmed t.origin = t.origin := by
  have hsame : Blank.trim t.origin.toList = t.origin.toList := by
    apply Blank.trimBy_eq_self_iff.mpr
    constructor
    · intro c hc
      rw [toList_origin, webScheme] at hc
      split at hc <;> cases hc <;> decide
    · intro c hc
      rw [getLast?_origin] at hc
      have hdigit := Numeral.isDigit_of_mem_toString t.port c (List.mem_of_getLast? hc)
      exact (isInk_of_isDigit hdigit).isBlank
  rw [Blank.trimmed, hsame, String.ofList_toList]

private theorem after?_origin (t : Target) : Cut.after? "dns:".toList t.origin.toList = none := by
  rw [toList_origin, webScheme]
  split <;> rfl

private theorem schemed_origin (t : Target) : schemed t.origin.toList = t.origin.toList := by
  rw [toList_origin, schemed, hasSchemeMark_append, if_pos rfl]

/-- The origin of a target, given as an address. -/
def again (t : Target) : Target :=
  ⟨t.origin, if t.isEncrypted then .secure else .plain, t.host, t.port, none⟩

private theorem schemeNamed?_webScheme (t : Target) : schemeNamed? t.webScheme = some t.again.scheme := by
  rw [webScheme, again]
  cases t.isEncrypted <;> rfl

private theorem Reads.reads_origin (h : Reads raw a t) {u : Uri} (huri : Uri.ofText t.origin.toList = .ok u) :
    Reads t.origin ⟨t.authority.toList⟩ t.again := by
  have hnamed := h.isNamedBy ⟨[], none⟩
  have hhost : (⟨t.authority.toList⟩ : Authority).host = t.host.toList := Option.some.inj hnamed.host
  have hport : (⟨t.authority.toList⟩ : Authority).port? = some t.port := hnamed.port
  have hsome : (⟨t.authority.toList⟩ : Authority).host ≠ [] := by
    rw [hhost, h.host_eq]
    exact h.host_ne
  obtain ⟨-, rfl⟩ := h.ofText_origin_ok_iff.mp huri
  rw [← schemed_origin] at huri
  have hreads := Reads.uri (after?_origin t) huri rfl (schemeNamed?_webScheme t) hsome
  rw [hhost, hport, String.ofList_toList] at hreads
  exact hreads

private theorem Reads.isEncrypted_again (h : Reads raw a t) {u : Uri}
    (huri : Uri.ofText t.origin.toList = .ok u) : t.again.isEncrypted = t.isEncrypted := by
  rw [Bool.eq_iff_iff, (h.reads_origin huri).isEncrypted_iff]
  cases hencrypted : t.isEncrypted with
  | true => simp [again, hencrypted]
  | false =>
    have hport : t.port ≠ securePort := by
      intro hsecure
      have hyes := h.isEncrypted_iff.mpr (.inr hsecure)
      rw [hencrypted] at hyes
      cases hyes
    simp [again, hencrypted, hport]

/-! ### The whole -/

private theorem Reads.readsBack (h : Reads raw a t) {u : Uri} (huri : Uri.ofText t.origin.toList = .ok u) :
    t.ReadsBack where
  uri := by
    obtain ⟨-, hu⟩ := h.ofText_origin_ok_iff.mp huri
    exact ⟨u, huri, hu ▸ h.isNamedBy _⟩
  endpoint := ofTarget_ne_badOrigin huri
  address := by
    have hreads : Reads (Blank.trimmed t.origin) ⟨t.authority.toList⟩ t.again := by
      rw [trimmed_origin]
      exact h.reads_origin huri
    exact ⟨t.again, ofAddress_ok_iff.mpr ⟨_, hreads⟩, rfl, rfl, h.isEncrypted_again huri⟩

/-- An origin reads back exactly if the host stands alone and the text is not too long; and if it does not,
no connection to the target can be opened. -/
theorem readsBack_iff {address : String} (h : ofAddress address = .ok t) :
    (t.ReadsBack ↔ Authority.StandsAlone t.host.toList ∧ isTooLong t.origin.toList = false) ∧
      (¬t.ReadsBack → Endpoint.ofTarget t = .error (.badOrigin t.raw)) := by
  obtain ⟨a, hreads⟩ := ofAddress_ok_iff.mp h
  constructor
  · constructor
    · intro hback
      obtain ⟨u, huri, -⟩ := hback.uri
      exact (hreads.ofText_origin_ok_iff.mp huri).1
    · intro hstands
      exact hreads.readsBack (hreads.ofText_origin_ok_iff.mpr ⟨hstands, rfl⟩)
  · intro hno
    apply ofTarget_eq_badOrigin
    intro u huri
    exact hno (hreads.readsBack huri)

/-- Brackets with a percent sign between them, behind user information with another one. -/
theorem readsBack_iff_zone :
    ∃ t, ofAddress "u%40x:pw@[fe80::1%25eth0]:443" = .ok t ∧ t.ReadsBack := by
  have hread : ofAddress "u%40x:pw@[fe80::1%25eth0]:443" =
      .ok ⟨"u%40x:pw@[fe80::1%25eth0]:443", .plain, "[fe80::1%25eth0]", 443, none⟩ := by rfl
  refine ⟨_, hread, (readsBack_iff hread).1.mpr ⟨?_, ?_⟩⟩
  · decide +kernel
  · decide +kernel

/-- A host that ends the brackets of the user information. Its origin is no URI. -/
theorem not_readsBack_strayBracket :
    ∃ t, ofAddress "http://[a@]" = .ok t ∧ t.origin = "http://]:80" ∧ ¬t.ReadsBack ∧
      Endpoint.ofTarget t = .error (.badOrigin "http://[a@]") := by
  have hread : ofAddress "http://[a@]" = .ok ⟨"http://[a@]", .plain, "]", 80, none⟩ := by rfl
  have hnone : ∀ u, Uri.ofText "http://]:80".toList ≠ .ok u := by
    intro u huri
    cases huri
  refine ⟨_, hread, by decide +kernel, fun hback => ?_, ofTarget_eq_badOrigin hnone⟩
  obtain ⟨u, huri, -⟩ := hback.uri
  exact hnone u huri

end RpcGateway.Target
