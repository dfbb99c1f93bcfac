import RpcGateway.Proofs.Target
/-!
# Written ports

The port of a target against the text that stands as the port in its address. If the text is a number of a
port, it is the port. If it is none, the address may be read all the same: then the port is the one that is
usual for the scheme, or the number behind a further colon.
-/
namespace RpcGateway.Target

open Uri (Authority)
open Uri.Authority (portNumber? portNumber?_eq_some_iff)

variable {raw : String} {a : Authority} {t : Target}

/-- The authority that stands in an address. -/
def authorityOf? (address : String) : Option Authority :=
  let cs := Blank.trim address.toList
  match Cut.after? "dns:".toList cs with
  | some rest => (Authority.ofText (skipResolver rest)).toOption
  | none => (Uri.ofText (schemed cs)).toOption.bind Uri.authority

private theorem Reads.authorityOf?_eq {address : String} (h : Reads (Blank.trimmed address) a t) :
    authorityOf? address = some a := by
  have hraw : (Blank.trimmed address).toList = Blank.trim address.toList := String.toList_ofList
  rw [authorityOf?]
  cases h with
  | resolver lead read =>
    rw [hraw] at lead
    simp only [lead, read]
    rfl
  | uri lead read authority =>
    rw [hraw] at lead read
    simp only [lead, read]
    exact authority

private theorem portNumber?_of_writes {text : List Char} {n : Nat} (h : Numeral.Writes text n)
    (hbound : n ≤ Numeral.maxWord16) : portNumber? text = some n := by
  have hcolon : ':' ∉ text := by
    intro hmem
    rcases h.isNumeralChar ':' hmem with hplus | hdigit
    · exact absurd hplus (by decide)
    · cases hdigit
  rw [portNumber?_eq_some_iff, Authority.afterLast_eq_self hcolon]
  exact ⟨h, hbound⟩

private theorem Reads.writes_port_iff (h : Reads raw a t) {text : List Char}
    (htext : a.portText? = some text) :
    Numeral.Writes text t.port ↔ ∃ n ≤ Numeral.maxWord16, Numeral.Writes text n := by
  constructor
  · intro hwrites
    exact ⟨t.port, h.port_le, hwrites⟩
  · intro ⟨n, hbound, hwrites⟩
    have hport : t.port = n := by
      rw [h.port_eq, Authority.port?_eq h.ofText_eq, htext, Option.bind_some,
        portNumber?_of_writes hwrites hbound, Option.getD_some]
    rw [hport]
    exact hwrites

/-- What the port of a target is, whatever is written for it; and that a port which is written is used
exactly if it is a number from 0 to 65535. -/
theorem port_used_iff {address : String} (h : ofAddress address = .ok t)
    (ha : authorityOf? address = some a) :
    t.port = (a.portText?.bind portNumber?).getD (defaultPort t.scheme) ∧
      (t.scheme = .resolver → (a.portText?.bind portNumber?).isSome = true) ∧
      ∀ text, a.portText? = some text →
        (Numeral.Writes text t.port ↔ ∃ n ≤ 65535, Numeral.Writes text n) := by
  obtain ⟨b, hreads⟩ := ofAddress_ok_iff.mp h
  obtain rfl : a = b := Option.some.inj (ha.symm.trans hreads.authorityOf?_eq)
  rw [← Authority.port?_eq hreads.ofText_eq]
  refine ⟨hreads.port_eq, fun hscheme => ?_, fun text htext => hreads.writes_port_iff htext⟩
  rw [(hreads.resolver_parts hscheme).2]
  rfl

/-- Neither the colons in user information and brackets nor a sign and zeros change the port. -/
theorem port_used_iff_signed :
    ∃ t a, ofAddress "grpcs://user:80@[::1]:+0443/p:1" = .ok t ∧
      authorityOf? "grpcs://user:80@[::1]:+0443/p:1" = some a ∧
      a.portText? = some "+0443".toList ∧ Numeral.Writes "+0443".toList t.port ∧ t.port = 443 := by
  have hread : ofAddress "grpcs://user:80@[::1]:+0443/p:1" =
      .ok ⟨"grpcs://user:80@[::1]:+0443/p:1", .secure, "[::1]", 443, some "/p:1"⟩ := by rfl
  have ha : authorityOf? "grpcs://user:80@[::1]:+0443/p:1" = some ⟨"user:80@[::1]:+0443".toList⟩ := by rfl
  have htext : Authority.portText? ⟨"user:80@[::1]:+0443".toList⟩ = some "+0443".toList := by
    decide +kernel
  have hnumber : Numeral.readNat Numeral.maxWord16 "+0443".toList = .ok 443 := by rfl
  have hwrites := ((port_used_iff hread ha).2.2 _ htext).mpr
    ⟨443, by decide, (Numeral.readNat_ok_iff.mp hnumber).1⟩
  exact ⟨_, _, hread, ha, htext, hwrites, rfl⟩

/-- A port beyond the largest one is not refused. The usual port of the scheme takes its place. -/
theorem not_port_used_tooLarge :
    ∃ t a, ofAddress "http://h:65536" = .ok t ∧ authorityOf? "http://h:65536" = some a ∧
      a.portText? = some "65536".toList ∧ t.port = 80 ∧ ¬Numeral.Writes "65536".toList t.port := by
  have hread : ofAddress "http://h:65536" = .ok ⟨"http://h:65536", .plain, "h", 80, none⟩ := by rfl
  have ha : authorityOf? "http://h:65536" = some ⟨"h:65536".toList⟩ := by rfl
  have htext : Authority.portText? ⟨"h:65536".toList⟩ = some "65536".toList := by decide +kernel
  refine ⟨_, _, hread, ha, htext, rfl, fun hwrites => ?_⟩
  have hnumber := portNumber?_of_writes hwrites (by decide)
  cases hnumber

end RpcGateway.Target
