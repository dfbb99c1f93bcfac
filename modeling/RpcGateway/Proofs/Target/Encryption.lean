import RpcGateway.Proofs.Target
import RpcGateway.Proofs.Text.Blank
/-!
# When connections are encrypted

The rule for encryption looks at the scheme and the port of a target, and for resolver addresses also at
how the text ends. The text adds nothing: where it ends in the secure port, this is the port that was read.
And the rule misses no address whose scheme asks for encryption.
-/
namespace RpcGateway.Target

open Uri (Authority)

variable {raw : String} {a : Authority} {t : Target}

/-! ### Resolver addresses -/

private theorem Reads.scheme_of_lead (h : Reads raw a t) (hlead : "dns:".toList <+: raw.toList) :
    t.scheme = .resolver := by
  cases h with
  | resolver => rfl
  | uri lead =>
    obtain ⟨rest, hrest⟩ := hlead
    rw [Cut.after?_eq_some_iff.mpr hrest.symm] at lead
    cases lead

private theorem Reads.port_of_suffix (h : Reads raw a t) (hscheme : t.scheme = .resolver)
    (hsuffix : ":443".toList <:+ raw.toList) : t.port = securePort := by
  obtain ⟨⟨lead, hlead⟩, hport⟩ := h.resolver_parts hscheme
  obtain ⟨first, hfirst⟩ := hsuffix
  rw [Authority.port?] at hport
  split at hport
  next hcolon =>
    obtain ⟨before, hsplit⟩ := Authority.exists_afterLast (List.contains_iff_mem.mp hcolon)
    have hread : Authority.afterLast ':' raw.toList = Authority.afterLast ':' a.text := by
      have hraw : raw.toList = (lead ++ before) ++ ':' :: Authority.afterLast ':' a.text := by
        rw [List.append_assoc, ← hsplit, hlead]
      rw [hraw]
      exact Authority.afterLast_append_of_notMem (Authority.notMem_afterLast ':' a.text) _
    have hwritten : Authority.afterLast ':' raw.toList = "443".toList := by
      have hnone : ':' ∉ "443".toList := by decide
      rw [← hfirst]
      exact Authority.afterLast_append_of_notMem hnone first
    rw [← hread, hwritten] at hport
    exact (Option.some.inj hport).symm
  next => cases hport

/-- Scheme and port decide whether a connection is encrypted. -/
theorem Reads.isEncrypted_iff (h : Reads raw a t) :
    t.isEncrypted = true ↔ t.scheme = .secure ∨ t.port = securePort := by
  rw [isEncrypted, Bool.or_eq_true, Bool.or_eq_true, Bool.and_eq_true, beq_iff_eq, beq_iff_eq,
    beq_iff_eq, List.isSuffixOf_iff_suffix, h.raw_eq]
  constructor
  · intro hrule
    rcases hrule with hparts | ⟨hscheme, hsuffix⟩
    · exact hparts
    · exact .inr (h.port_of_suffix hscheme hsuffix)
  · intro hparts
    exact .inl hparts

/-! ### Addresses that ask for encryption -/

/-- An address begins, behind blanks, with `https://` in any letter case or with `grpcs://`. -/
def AsksForEncryption (address : List Char) : Prop :=
  ∃ word rest, address.dropWhile Blank.isBlank = word ++ "://".toList ++ rest ∧
    (word.map Char.toLower = "https".toList ∨ word = "grpcs".toList)

private theorem splitScheme_secure {word : List Char}
    (h : word.map Char.toLower = "https".toList ∨ word = "grpcs".toList) (rest : List Char) :
    ∃ scheme left, Uri.splitScheme (word ++ "://".toList ++ rest) = .ok (some scheme, left) ∧
      schemeNamed? scheme = some .secure := by
  rcases h with hlower | rfl
  · have hlead : (word ++ "://".toList ++ rest).map Char.toLower =
        "https://".toList ++ rest.map Char.toLower := by
      rw [List.map_append, List.map_append, hlower]
      rfl
    have hplain : Uri.afterLead? "http://".toList (word ++ "://".toList ++ rest) = none := by
      rw [Uri.afterLead?, List.map_take, hlead]
      rfl
    have hsecure : ∃ left, Uri.afterLead? "https://".toList (word ++ "://".toList ++ rest) =
        some left := by
      rw [Uri.afterLead?, List.map_take, hlead]
      exact ⟨_, rfl⟩
    obtain ⟨left, hleft⟩ := hsecure
    refine ⟨"https".toList, left, ?_, rfl⟩
    rw [Uri.splitScheme, hplain, hleft]
  · exact ⟨"grpcs".toList, rest, rfl, rfl⟩

theorem hasSchemeMark_append (cs rest : List Char) :
    hasSchemeMark (cs ++ "://".toList ++ rest) = true := by
  induction cs with
  | nil => rfl
  | cons c more ih =>
    rw [List.cons_append, List.cons_append, hasSchemeMark, ih, Bool.or_true]

private theorem trim_append {lead rest cs : List Char} (hlead : ∀ c ∈ lead.getLast?, Blank.isBlank c = false)
    (h : cs.dropWhile Blank.isBlank = lead ++ rest) : ∃ left, Blank.trim cs = lead ++ left := by
  rw [Blank.trim, Blank.trimBy, h, List.reverse_append, List.dropWhile_append]
  split
  · have hkept : lead.reverse.dropWhile Blank.isBlank = lead.reverse := by
      apply Blank.dropWhile_eq_self_iff.mpr
      rwa [List.head?_reverse]
    rw [hkept, List.reverse_reverse]
    exact ⟨[], (List.append_nil lead).symm⟩
  · rw [List.reverse_append, List.reverse_reverse]
    exact ⟨_, rfl⟩

private theorem first_of_word {word : List Char}
    (h : word.map Char.toLower = "https".toList ∨ word = "grpcs".toList) :
    ∃ c more, word = c :: more ∧ c ≠ 'd' ∧ c ≠ '/' := by
  rcases h with hlower | rfl
  · obtain ⟨c, more, rfl, hc, -⟩ := List.map_eq_cons_iff.mp hlower
    refine ⟨c, more, rfl, ?_, ?_⟩
    · rintro rfl
      exact absurd hc (by decide)
    · rintro rfl
      exact absurd hc (by decide)
  · exact ⟨'g', "rpcs".toList, rfl, by decide, by decide⟩

private theorem Reads.secure_of_lead (h : Reads raw a t) {word rest : List Char}
    (hraw : raw.toList = word ++ "://".toList ++ rest)
    (hword : word.map Char.toLower = "https".toList ∨ word = "grpcs".toList) :
    t.scheme = .secure := by
  obtain ⟨c, more, hcons, hnoLead, hnoSlash⟩ := first_of_word hword
  cases h with
  | resolver lead =>
    have hdns := Cut.after?_eq_some_iff.mp lead
    rw [hraw, hcons] at hdns
    exact absurd (List.cons.inj hdns).1 hnoLead
  | uri lead read authority scheme_eq host =>
    rw [schemed, hraw, hasSchemeMark_append, if_pos rfl] at read
    obtain ⟨scheme, left, hsplit, hsecure⟩ := splitScheme_secure hword rest
    rcases Uri.ofText_ok_cases read with ⟨hslash, -⟩ | ⟨_, _, _, hscheme, -⟩
    · rw [hcons] at hslash
      exact absurd (Option.some.inj hslash) hnoSlash
    · rw [hsplit, Except.ok.injEq, Prod.mk.injEq] at hscheme
      rw [← hscheme.1, Option.getD_some, hsecure] at scheme_eq
      exact (Option.some.inj scheme_eq).symm

private theorem isEncrypted_of_asksForEncryption {address : String} (h : ofAddress address = .ok t)
    (hasks : AsksForEncryption address.toList) : t.isEncrypted = true := by
  obtain ⟨a, hreads⟩ := ofAddress_ok_iff.mp h
  obtain ⟨word, rest, hstart, hword⟩ := hasks
  have hlast : ∀ c ∈ (word ++ "://".toList).getLast?, Blank.isBlank c = false := by
    intro c hc
    rw [List.getLast?_append] at hc
    cases hc
    decide
  obtain ⟨left, hleft⟩ := trim_append hlast hstart
  have hraw : (Blank.trimmed address).toList = word ++ "://".toList ++ left := by
    rw [Blank.trimmed, String.toList_ofList, hleft]
  exact hreads.isEncrypted_iff.mpr (.inl (hreads.secure_of_lead hraw hword))

/-- Connections are encrypted exactly if the scheme or the port asks for it; how the text of a resolver
address ends says the same as its port; and an address with a secure scheme is never read as one without. -/
theorem encryption_follows_parts {address : String} (h : ofAddress address = .ok t) :
    (t.isEncrypted = true ↔ t.scheme = .secure ∨ t.port = 443) ∧
      ("dns:".toList <+: Blank.trim address.toList → ":443".toList <:+ Blank.trim address.toList →
        t.port = 443) ∧
      (AsksForEncryption address.toList → t.isEncrypted = true) := by
  obtain ⟨a, hreads⟩ := ofAddress_ok_iff.mp h
  have hraw : (Blank.trimmed address).toList = Blank.trim address.toList := String.toList_ofList
  refine ⟨hreads.isEncrypted_iff, fun hlead hsuffix => ?_, isEncrypted_of_asksForEncryption h⟩
  rw [← hraw] at hlead hsuffix
  exact hreads.port_of_suffix (hreads.scheme_of_lead hlead) hsuffix

/-- Resolver, user information and brackets all hold colons of their own, and a secure scheme may be
written in mixed case behind a blank. -/
theorem encryption_follows_parts_mixed :
    (∃ t, ofAddress "dns://8.8.8.8:53/user:pw@[fe80::1]:443" = .ok t ∧ t.port = 443 ∧
        t.isEncrypted = true) ∧
      ∃ t, ofAddress " hTTpS://h:8080" = .ok t ∧ t.isEncrypted = true := by
  constructor
  · have hread : ofAddress "dns://8.8.8.8:53/user:pw@[fe80::1]:443" =
        .ok ⟨"dns://8.8.8.8:53/user:pw@[fe80::1]:443", .resolver, "[fe80::1]", 443, none⟩ := by rfl
    obtain ⟨hparts, hresolver, -⟩ := encryption_follows_parts hread
    have hport := hresolver (by decide +kernel) (by decide +kernel)
    exact ⟨_, hread, hport, hparts.mpr (.inr hport)⟩
  · have hread : ofAddress " hTTpS://h:8080" = .ok ⟨"hTTpS://h:8080", .secure, "h", 8080, none⟩ := by rfl
    have hasks : AsksForEncryption " hTTpS://h:8080".toList :=
      ⟨"hTTpS".toList, "h:8080".toList, by decide +kernel, .inl (by decide +kernel)⟩
    exact ⟨_, hread, (encryption_follows_parts hread).2.2 hasks⟩

end RpcGateway.Target
