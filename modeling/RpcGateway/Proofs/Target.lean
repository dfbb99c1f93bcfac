import RpcGateway.Proofs.Uri.Authority
import RpcGateway.Target
/-!
# The parts of a target

The host of a target is taken from an authority and its path from a URI. So nothing in its authority ends
one, and its path can stand in another URI. Host and port are found again in every URI that begins with the
origin of the target.
-/
namespace RpcGateway.Target

open Outcome (bind_eq_ok_iff mapError_eq_ok_iff)
open Uri (isTerminator isPathChar Authority)

/-! ### Reading an address -/

/-- The text that is read as a URI: in an address without a scheme, one is put in front. -/
def schemed (cs : List Char) : List Char :=
  if hasSchemeMark cs then cs else "http://".toList ++ cs

/-- What an address without the blanks around it is read as, and the authority that names the place. -/
inductive Reads (raw : String) : Authority → Target → Prop
  | resolver {rest : List Char} {a : Authority} {port : Nat}
      (lead : Cut.after? "dns:".toList raw.toList = some rest)
      (read : Authority.ofText (skipResolver rest) = .ok a)
      (host : a.host ≠ []) (port_eq : a.port? = some port) :
      Reads raw a ⟨raw, .resolver, String.ofList a.host, port, none⟩
  | uri {u : Uri} {a : Authority} {scheme : Scheme}
      (lead : Cut.after? "dns:".toList raw.toList = none)
      (read : Uri.ofText (schemed raw.toList) = .ok u) (authority : u.authority = some a)
      (scheme_eq : schemeNamed? (u.scheme.getD []) = some scheme) (host : a.host ≠ []) :
      Reads raw a ⟨raw, scheme, String.ofList a.host, a.port?.getD (defaultPort scheme),
        trimPath u.target.path⟩

private theorem ofResolver_ok_iff {raw : String} {rest : List Char} {t : Target} :
    ofResolver raw rest = .ok t ↔ ∃ a port, Authority.ofText (skipResolver rest) = .ok a ∧
      a.host ≠ [] ∧ a.port? = some port ∧ t = ⟨raw, .resolver, String.ofList a.host, port, none⟩ := by
  simp only [ofResolver]
  constructor
  · intro h
    split at h
    · cases h
    · obtain ⟨a, hread, hok⟩ := bind_eq_ok_iff.mp h
      split at hok
      · cases hok
      next hhost =>
      split at hok
      · cases hok
      next port hport =>
      cases hok
      exact ⟨a, port, mapError_eq_ok_iff.mp hread, by simpa using hhost, hport, rfl⟩
  · rintro ⟨a, port, hread, hhost, hport, rfl⟩
    have hsome : ¬(skipResolver rest).isEmpty = true := by
      intro hempty
      rw [List.isEmpty_iff.mp hempty] at hread
      cases hread
    rw [if_neg hsome]
    apply bind_eq_ok_iff.mpr
    refine ⟨a, mapError_eq_ok_iff.mpr hread, ?_⟩
    rw [if_neg (by simpa using hhost), hport]
    rfl

private theorem ofUri_ok_iff {raw : String} {t : Target} :
    ofUri raw = .ok t ↔ ∃ u a scheme, Uri.ofText (schemed raw.toList) = .ok u ∧
      u.authority = some a ∧ schemeNamed? (u.scheme.getD []) = some scheme ∧ a.host ≠ [] ∧
      t = ⟨raw, scheme, String.ofList a.host, a.port?.getD (defaultPort scheme),
        trimPath u.target.path⟩ := by
  constructor
  · intro h
    obtain ⟨u, hread, hok⟩ := bind_eq_ok_iff.mp h
    simp only at hok
    split at hok
    · cases hok
    · cases hok
    next scheme a hscheme ha =>
    split at hok
    · cases hok
    next hhost =>
    cases hok
    exact ⟨u, a, scheme, mapError_eq_ok_iff.mp hread, ha, hscheme, by simpa using hhost, rfl⟩
  · rintro ⟨u, a, scheme, hread, ha, hscheme, hhost, rfl⟩
    apply bind_eq_ok_iff.mpr
    refine ⟨u, mapError_eq_ok_iff.mpr hread, ?_⟩
    simp only [hscheme, ha]
    rw [if_neg (by simpa using hhost)]
    rfl

theorem ofAddress_ok_iff {address : String} {t : Target} :
    ofAddress address = .ok t ↔ ∃ a, Reads (Blank.trimmed address) a t := by
  simp only [ofAddress]
  constructor
  · intro h
    split at h
    · cases h
    · split at h
      next rest hlead =>
        obtain ⟨a, port, hread, hhost, hport, rfl⟩ := ofResolver_ok_iff.mp h
        exact ⟨a, .resolver hlead hread hhost hport⟩
      next hlead =>
        obtain ⟨u, a, scheme, hread, ha, hscheme, hhost, rfl⟩ := ofUri_ok_iff.mp h
        exact ⟨a, .uri hlead hread ha hscheme hhost⟩
  · rintro ⟨a, hreads⟩
    generalize Blank.trimmed address = raw at hreads
    have hsome : ¬raw.isEmpty = true := by
      intro hempty
      rw [String.isEmpty_iff] at hempty
      subst hempty
      cases hreads with
      | resolver lead => cases lead
      | uri lead read => cases read
    rw [if_neg hsome]
    cases hreads with
    | resolver lead read host port_eq =>
      rw [lead]
      exact ofResolver_ok_iff.mpr ⟨_, _, read, host, port_eq, rfl⟩
    | uri lead read authority scheme_eq host =>
      rw [lead]
      exact ofUri_ok_iff.mpr ⟨_, _, _, read, authority, scheme_eq, host, rfl⟩

/-! ### What was read -/

variable {raw : String} {a : Authority} {t : Target}

theorem Reads.raw_eq (h : Reads raw a t) : t.raw = raw := by
  cases h <;> rfl

theorem Reads.host_eq (h : Reads raw a t) : t.host.toList = a.host := by
  cases h <;> exact String.toList_ofList

theorem Reads.host_ne (h : Reads raw a t) : a.host ≠ [] := by
  cases h with
  | resolver _ _ host => exact host
  | uri _ _ _ _ host => exact host

theorem Reads.ofText_eq (h : Reads raw a t) : Authority.ofText a.text = .ok a := by
  cases h with
  | resolver _ read => rw [(Authority.ofText_ok read).1, read]
  | uri _ read authority => exact Authority.ofText_of_uri read authority

theorem Reads.port_eq (h : Reads raw a t) : t.port = a.port?.getD (defaultPort t.scheme) := by
  cases h with
  | resolver _ _ _ port_eq => rw [port_eq, Option.getD_some]
  | uri => rfl

theorem Reads.port_le (h : Reads raw a t) : t.port ≤ Numeral.maxWord16 := by
  rw [h.port_eq]
  cases hport : a.port? with
  | some port => exact Authority.port?_le hport
  | none => cases t.scheme <;> decide

/-! ### Resolver addresses -/

private theorem skipResolver_suffix (cs : List Char) : skipResolver cs <:+ cs := by
  rw [skipResolver]
  split
  next => exact List.suffix_refl cs
  next rest hlead =>
    have hrest : rest <:+ cs := ⟨"//".toList, (Cut.after?_eq_some_iff.mp hlead).symm⟩
    split
    next c address hmark =>
      have hdropped : c :: address <:+ rest := hmark ▸ List.dropWhile_suffix _
      exact ((List.suffix_cons c address).trans hdropped).trans hrest
    next => exact hrest

private theorem schemeNamed?_ne_resolver (name : List Char) : schemeNamed? name ≠ some .resolver := by
  rw [schemeNamed?]
  split
  · simp
  · split <;> simp

/-- The authority of a resolver address is the end of its text, and its port is given. -/
theorem Reads.resolver_parts (h : Reads raw a t) (hscheme : t.scheme = .resolver) :
    a.text <:+ raw.toList ∧ a.port? = some t.port := by
  cases h with
  | @uri u _ scheme _ _ _ scheme_eq _ =>
    have hnone : scheme = .resolver := hscheme
    rw [hnone] at scheme_eq
    exact absurd scheme_eq (schemeNamed?_ne_resolver _)
  | @resolver rest _ port lead read _ port_eq =>
    have hrest : rest <:+ raw.toList := ⟨"dns:".toList, (Cut.after?_eq_some_iff.mp lead).symm⟩
    rw [(Authority.ofText_ok read).1]
    exact ⟨(skipResolver_suffix rest).trans hrest, port_eq⟩

/-! ### Host and path -/

structure IsWellFormed (t : Target) : Prop where
  host : ∀ c ∈ t.host.toList, isTerminator c = false
  path : ∀ path, t.path = some path → (∀ c ∈ path.toList, isPathChar c = true) ∧
    path.toList.head? = some '/'

private theorem trimPath_isPrefix {cs : List Char} {path : String} (h : trimPath cs = some path) :
    path.toList <+: cs ∧ path.toList ≠ [] := by
  have hlead : (cs.reverse.dropWhile (· == '/')).reverse <+: cs := by
    rw [← List.reverse_suffix, List.reverse_reverse]
    exact List.dropWhile_suffix _
  rw [trimPath] at h
  split at h
  next => cases h
  next hsome =>
    cases h
    rw [String.toList_ofList]
    exact ⟨hlead, hsome⟩

theorem Reads.isWellFormed (h : Reads raw a t) : t.IsWellFormed := by
  have hplain := (Authority.ofText_ok h.ofText_eq).2
  have hhost : ∀ c ∈ t.host.toList, isTerminator c = false := by
    rw [h.host_eq]
    exact Authority.isTerminator_of_mem_host hplain
  refine ⟨hhost, fun path hpath => ?_⟩
  cases h with
  | resolver => cases hpath
  | uri _ read =>
    have hformed := Uri.isWellFormed_of_ofText read
    obtain ⟨hlead, hsome⟩ := trimPath_isPrefix hpath
    refine ⟨fun c hc => hformed.target.path c (hlead.subset hc), ?_⟩
    cases hlist : path.toList with
    | nil => exact absurd hlist hsome
    | cons c more =>
      obtain ⟨rest, hrest⟩ := hlead
      have hfirst := congrArg List.head? hrest
      rw [hlist, List.cons_append, List.head?_cons] at hfirst
      rw [hformed.rooted c hfirst.symm]
      rfl

theorem isWellFormed_of_ofAddress {address : String} {t : Target} (h : ofAddress address = .ok t) :
    t.IsWellFormed := by
  obtain ⟨a, hreads⟩ := ofAddress_ok_iff.mp h
  exact hreads.isWellFormed

/-! ### Addresses of targets -/

theorem toList_authority (t : Target) :
    t.authority.toList = t.host.toList ++ ':' :: (toString t.port).toList := by
  rw [authority, String.toList_append, String.toList_append, List.append_assoc]
  rfl

/-- Nothing in the authority of a target ends it. -/
theorem IsWellFormed.authority {t : Target} (h : t.IsWellFormed) :
    ∀ c ∈ t.authority.toList, isTerminator c = false := by
  have hport : ∀ c ∈ (toString t.port).toList, isTerminator c = false := by
    intro c hc
    exact Authority.isTerminator_of_isDigit (Numeral.isDigit_of_mem_toString t.port c hc)
  rw [toList_authority, List.forall_mem_append, List.forall_mem_cons]
  exact ⟨h.host, rfl, hport⟩

def webScheme (t : Target) : List Char :=
  if t.isEncrypted then "https".toList else "http".toList

theorem isWebScheme_webScheme (t : Target) : Uri.IsWebScheme t.webScheme := by
  rw [webScheme]
  split
  · exact .inr rfl
  · exact .inl rfl

theorem toList_origin (t : Target) :
    t.origin.toList = t.webScheme ++ "://".toList ++ t.authority.toList := by
  rw [origin, webScheme, String.toList_append]
  split <;> rfl

/-! ### The place that a target names -/

/-- A URI leads to the place of a target: to its host and its port, and over an encrypted connection
exactly if the target asks for one. -/
structure IsNamedBy (t : Target) (u : Uri) : Prop where
  scheme : u.scheme = some t.webScheme
  host : u.authority.map Authority.host = some t.host.toList
  port : u.authority.bind Authority.port? = some t.port

private theorem webScheme_eq_https_iff : t.webScheme = "https".toList ↔ t.isEncrypted = true := by
  rw [webScheme]
  cases t.isEncrypted <;> decide

theorem IsNamedBy.scheme_eq_https_iff {u : Uri} (h : t.IsNamedBy u) :
    u.scheme = some "https".toList ↔ t.isEncrypted = true := by
  rw [h.scheme, Option.some.injEq, webScheme_eq_https_iff]

/-- What stands behind the authority of a target does not change where a URI leads. -/
theorem Reads.isNamedBy (h : Reads raw a t) (target : Uri.PathAndQuery) :
    t.IsNamedBy ⟨some t.webScheme, some ⟨t.authority.toList⟩, target⟩ := by
  have hdigits := Numeral.isDigit_of_mem_toString t.port
  have hnone (mark : Char) (hmark : mark.isDigit = false) : mark ∉ (toString t.port).toList := by
    intro hmem
    rw [hdigits mark hmem] at hmark
    cases hmark
  refine ⟨rfl, ?_, ?_⟩
  · rw [Option.map_some, toList_authority, h.host_eq]
    exact congrArg some (Authority.host_join h.host_ne (hnone '@' (by decide)))
  · rw [Option.bind_some, toList_authority, Authority.port?_join _ (hnone ':' (by decide)),
      Numeral.readNat_ok_iff.mpr ⟨Numeral.writes_toString t.port, h.port_le⟩]
    rfl

end RpcGateway.Target
