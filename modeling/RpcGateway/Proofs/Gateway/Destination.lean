import RpcGateway.Proofs.Gateway.Relaying
/-!
# Relayed calls stay with their target

The address of a relayed call is one text, made of the target and of what a caller wrote, and it is read
once more as a URI. Nothing that a caller can write moves the end of the authority in it: if the text can be
read at all, it leads to the host and the port of the target, encrypted exactly if the target asks for it.
-/
namespace RpcGateway.Gateway

private theorem isNamedBy_of_relayUri {address : String} {target : Target}
    (h : Target.ofAddress address = .ok target) {method : List Char} {query : Option (List Char)}
    {uri : Uri} (huri : relayUri target method query = .ok uri) : target.IsNamedBy uri := by
  have hformed := Target.isWellFormed_of_ofAddress h
  obtain ⟨a, hreads⟩ := Target.ofAddress_ok_iff.mp h
  obtain ⟨-, -, read, -, hwhole⟩ := (relayUri_ok_iff hformed).mp huri
  rw [hwhole]
  exact hreads.isNamedBy read

/-- Whatever method and query say, the address of a relayed call leads to its target. -/
theorem relayUri_leads_to_target {address : String} {target : Target}
    (h : Target.ofAddress address = .ok target) {method : List Char} {query : Option (List Char)}
    {uri : Uri} (huri : relayUri target method query = .ok uri) :
    (uri.scheme = some "https".toList ↔ target.isEncrypted = true) ∧
      uri.authority.map Uri.Authority.host = some target.host.toList ∧
      uri.authority.bind Uri.Authority.port? = some target.port := by
  have hnamed := isNamedBy_of_relayUri h huri
  exact ⟨hnamed.scheme_eq_https_iff, hnamed.host, hnamed.port⟩

/-- A target with user information, a host in brackets, a port and a path of its own. -/
def guardedTarget : Target :=
  ⟨"http://user:pw@[fe80::1]:8443/api/", .plain, "[fe80::1]", 8443, some "/api"⟩

/-- A method that names another server behind two slashes and an at sign changes nothing. -/
theorem relayUri_leads_to_target_guarded :
    Target.ofAddress "http://user:pw@[fe80::1]:8443/api/" = .ok guardedTarget ∧
      ∃ uri, relayUri guardedTarget "//@evil.example:443/..?a#b".toList (some "c=:80@d".toList) =
          .ok uri ∧
        (uri.scheme = some "https".toList ↔ guardedTarget.isEncrypted = true) ∧
        uri.authority.map Uri.Authority.host = some guardedTarget.host.toList ∧
        uri.authority.bind Uri.Authority.port? = some guardedTarget.port := by
  have htarget : Target.ofAddress "http://user:pw@[fe80::1]:8443/api/" = .ok guardedTarget := by rfl
  have huri : relayUri guardedTarget "//@evil.example:443/..?a#b".toList (some "c=:80@d".toList) =
      .ok ⟨some "http".toList, some ⟨"[fe80::1]:8443".toList⟩,
        "/api/@evil.example:443/..".toList, some "a".toList⟩ := by rfl
  exact ⟨htarget, _, huri, relayUri_leads_to_target htarget huri⟩

/-- A request is passed on to its own target or to nobody. -/
theorem Relays.isNamedBy {settings : Settings} {part : List Char} {target : Target}
    {request : Http.Request} (h : Relays settings part target request) {uri : Uri}
    (hpasses : PassesOn settings request uri) : target.IsNamedBy uri := by
  obtain ⟨address, haddress⟩ := h.exists_address
  obtain ⟨method, -, huri⟩ := (passesOn_iff h).mp hpasses
  exact isNamedBy_of_relayUri haddress huri

end RpcGateway.Gateway
