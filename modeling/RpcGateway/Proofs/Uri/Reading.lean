import RpcGateway.Proofs.Outcome
import RpcGateway.Uri
/-!
# Reading URIs back

What was read as a URI can be put into another one: the authority ends where a path, a query or a fragment
begins, and a path and a query are read as they are. So the reading of a web address is known from its
authority alone, whatever path and query stand behind it.
-/
namespace RpcGateway.Uri

open Outcome (bind_eq_ok_iff)

/-! ### Paths and queries -/

private theorem ne_of_isPathChar {c : Char} (h : isPathChar c = true) : c ≠ '#' ∧ c ≠ '?' := by
  constructor
  · rintro rfl
    cases h
  · rintro rfl
    cases h

namespace PathAndQuery

/-- A path and query as they stand behind an authority, where the path may be empty. -/
def written (p : PathAndQuery) : List Char :=
  p.path ++ p.shownQuery

structure IsWellFormed (p : PathAndQuery) : Prop where
  path : ∀ c ∈ p.path, isPathChar c = true
  query : ∀ query, p.query = some query → ∀ c ∈ query, isQueryChar c = true

private theorem isQueryChar_of_mem_readQuery {cs query : List Char} (h : readQuery cs = .ok query) :
    ∀ c ∈ query, isQueryChar c = true := by
  induction cs generalizing query with
  | nil =>
    cases h
    exact List.forall_mem_nil _
  | cons c rest ih =>
    rw [readQuery] at h
    by_cases hfragment : c = '#'
    · rw [if_pos hfragment] at h
      cases h
      exact List.forall_mem_nil _
    · rw [if_neg hfragment] at h
      by_cases hchar : isQueryChar c = true
      · rw [if_pos hchar] at h
        obtain ⟨more, hmore, hquery⟩ := bind_eq_ok_iff.mp h
        cases hquery
        exact List.forall_mem_cons.mpr ⟨hchar, ih hmore⟩
      · rw [if_neg hchar] at h
        cases h

private theorem readQuery_eq_self {query : List Char} (h : ∀ c ∈ query, isQueryChar c = true) :
    readQuery query = .ok query := by
  induction query with
  | nil => rfl
  | cons c rest ih =>
    obtain ⟨hchar, hrest⟩ := List.forall_mem_cons.mp h
    have hfragment : c ≠ '#' := by
      rintro rfl
      cases hchar
    rw [readQuery, if_neg hfragment, if_pos hchar, ih hrest]
    rfl

private theorem ofText_cons_cases {c : Char} {rest : List Char} {p : PathAndQuery}
    (h : ofText (c :: rest) = .ok p) :
    (c = '#' ∧ p = ⟨[], none⟩) ∨
    (c = '?' ∧ ∃ query, readQuery rest = .ok query ∧ p = ⟨[], some query⟩) ∨
    (isPathChar c = true ∧ ∃ tail, ofText rest = .ok tail ∧ p = ⟨c :: tail.path, tail.query⟩) := by
  rw [ofText] at h
  by_cases hfragment : c = '#'
  · rw [if_pos hfragment] at h
    cases h
    exact .inl ⟨hfragment, rfl⟩
  · rw [if_neg hfragment] at h
    by_cases hmark : c = '?'
    · rw [if_pos hmark] at h
      obtain ⟨query, hquery, hp⟩ := bind_eq_ok_iff.mp h
      cases hp
      exact .inr (.inl ⟨hmark, query, hquery, rfl⟩)
    · rw [if_neg hmark] at h
      by_cases hchar : isPathChar c = true
      · rw [if_pos hchar] at h
        obtain ⟨tail, htail, hp⟩ := bind_eq_ok_iff.mp h
        cases hp
        exact .inr (.inr ⟨hchar, tail, htail, rfl⟩)
      · rw [if_neg hchar] at h
        cases h

theorem isWellFormed_of_ofText {cs : List Char} {p : PathAndQuery} (h : ofText cs = .ok p) :
    p.IsWellFormed := by
  induction cs generalizing p with
  | nil =>
    cases h
    exact ⟨List.forall_mem_nil _, nofun⟩
  | cons c rest ih =>
    rcases ofText_cons_cases h with ⟨-, rfl⟩ | ⟨-, query, hquery, rfl⟩ | ⟨hchar, tail, htail, rfl⟩
    · exact ⟨List.forall_mem_nil _, nofun⟩
    · refine ⟨List.forall_mem_nil _, fun other hother => ?_⟩
      cases hother
      exact isQueryChar_of_mem_readQuery hquery
    · exact ⟨List.forall_mem_cons.mpr ⟨hchar, (ih htail).path⟩, (ih htail).query⟩

private theorem isRooted_of_ofText {cs : List Char} {p : PathAndQuery} (h : ofText cs = .ok p)
    (hstart : ∀ c ∈ cs.head?, isTerminator c = true) : ∀ c ∈ p.path.head?, c = '/' := by
  cases cs with
  | nil =>
    cases h
    exact nofun
  | cons c rest =>
    rcases ofText_cons_cases h with ⟨-, rfl⟩ | ⟨-, query, -, rfl⟩ | ⟨hchar, tail, -, rfl⟩
    · exact nofun
    · exact nofun
    · intro first hfirst
      cases hfirst
      obtain ⟨hfragment, hmark⟩ := ne_of_isPathChar hchar
      have hterminator := hstart c rfl
      simpa [isTerminator, hfragment, hmark] using hterminator

/-- A well-formed path and query are read as they are. -/
theorem IsWellFormed.ofText_written {p : PathAndQuery} (h : p.IsWellFormed) :
    ofText p.written = .ok p := by
  obtain ⟨path, query⟩ := p
  obtain ⟨hpath, hquery⟩ := h
  simp only at hpath hquery
  induction path with
  | nil =>
    cases query with
    | none => rfl
    | some query =>
      have hread := readQuery_eq_self (hquery query rfl)
      simp only [written, shownQuery, List.nil_append]
      rw [ofText, if_neg (by decide), if_pos rfl, hread]
      rfl
  | cons c rest ih =>
    obtain ⟨hchar, hrest⟩ := List.forall_mem_cons.mp hpath
    obtain ⟨hfragment, hmark⟩ := ne_of_isPathChar hchar
    have htail := ih hrest
    simp only [written, shownQuery] at htail ⊢
    rw [List.cons_append, ofText, if_neg hfragment, if_neg hmark, if_pos hchar, htail]
    rfl

private theorem readQuery_takeWhile (cs : List Char) :
    readQuery (cs.takeWhile (· ≠ '#')) = readQuery cs := by
  induction cs with
  | nil => rfl
  | cons c rest ih =>
    by_cases hfragment : c = '#'
    · rw [List.takeWhile_cons_of_neg (by simpa using hfragment), readQuery, readQuery,
        if_pos hfragment]
    · rw [List.takeWhile_cons_of_pos (by simpa using hfragment), readQuery, readQuery, ih]

private theorem ofText_takeWhile (cs : List Char) : ofText (cs.takeWhile (· ≠ '#')) = ofText cs := by
  induction cs with
  | nil => rfl
  | cons c rest ih =>
    by_cases hfragment : c = '#'
    · rw [List.takeWhile_cons_of_neg (by simpa using hfragment), ofText, ofText, if_pos hfragment]
    · rw [List.takeWhile_cons_of_pos (by simpa using hfragment), ofText, ofText, ih,
        readQuery_takeWhile]

private theorem readQuery_eq {cs query : List Char} (h : readQuery cs = .ok query) :
    query = cs.takeWhile (· ≠ '#') := by
  induction cs generalizing query with
  | nil =>
    cases h
    rfl
  | cons c rest ih =>
    rw [readQuery] at h
    by_cases hfragment : c = '#'
    · rw [if_pos hfragment] at h
      cases h
      rw [List.takeWhile_cons_of_neg (by simpa using hfragment)]
    · rw [if_neg hfragment] at h
      split at h
      · obtain ⟨more, hmore, hquery⟩ := bind_eq_ok_iff.mp h
        cases hquery
        rw [List.takeWhile_cons_of_pos (by simpa using hfragment), ih hmore]
      · cases h

/-- A text is read as the path and query that stand before its fragment. -/
theorem ofText_ok_iff {cs : List Char} {p : PathAndQuery} :
    ofText cs = .ok p ↔ p.IsWellFormed ∧ p.written = cs.takeWhile (· ≠ '#') := by
  constructor
  · intro h
    refine ⟨isWellFormed_of_ofText h, ?_⟩
    induction cs generalizing p with
    | nil =>
      cases h
      rfl
    | cons c rest ih =>
      rcases ofText_cons_cases h with ⟨rfl, rfl⟩ | ⟨rfl, query, hquery, rfl⟩ |
        ⟨hchar, tail, htail, rfl⟩
      · rfl
      · rw [List.takeWhile_cons_of_pos (by decide), ← readQuery_eq hquery]
        rfl
      · have hfragment := (ne_of_isPathChar hchar).1
        rw [List.takeWhile_cons_of_pos (by simpa using hfragment), ← ih htail]
        rfl
  · rintro ⟨hformed, hwritten⟩
    rw [← ofText_takeWhile, ← hwritten]
    exact hformed.ofText_written

/-- A path ends at the latest where a query follows. -/
theorem path_prefix_of_ofText {p q : PathAndQuery} (h : ofText p.written = .ok q) :
    q.path <+: p.path := by
  obtain ⟨path, query⟩ := p
  simp only [written, shownQuery] at h ⊢
  induction path generalizing q with
  | nil =>
    cases query with
    | none =>
      cases h
      exact List.nil_prefix
    | some query =>
      rcases ofText_cons_cases h with ⟨-, rfl⟩ | ⟨-, _, -, rfl⟩ | ⟨hchar, -⟩
      · exact List.nil_prefix
      · exact List.nil_prefix
      · cases hchar
  | cons c rest ih =>
    rcases ofText_cons_cases h with ⟨-, rfl⟩ | ⟨-, _, -, rfl⟩ | ⟨-, tail, htail, rfl⟩
    · exact List.nil_prefix
    · exact List.nil_prefix
    · exact List.cons_prefix_cons.mpr ⟨rfl, ih htail⟩

end PathAndQuery

/-! ### Authorities -/

theorem takeAuthority_ok {seen : Scan} {cs text rest : List Char}
    (h : takeAuthority seen cs = .ok (text, rest)) :
    cs = text ++ rest ∧ (∀ c ∈ text, isTerminator c = false) ∧
      ∀ c ∈ rest.head?, isTerminator c = true := by
  induction cs generalizing seen text with
  | nil =>
    rw [takeAuthority] at h
    split at h <;> cases h
    exact ⟨rfl, List.forall_mem_nil _, nofun⟩
  | cons c more ih =>
    rw [takeAuthority] at h
    cases hend : isTerminator c with
    | true =>
      rw [if_pos hend] at h
      split at h <;> cases h
      refine ⟨rfl, List.forall_mem_nil _, fun first hfirst => ?_⟩
      cases hfirst
      exact hend
    | false =>
      rw [if_neg (Bool.eq_false_iff.mp hend)] at h
      obtain ⟨next, -, h⟩ := bind_eq_ok_iff.mp h
      obtain ⟨⟨taken, left⟩, htaken, hsplit⟩ := bind_eq_ok_iff.mp h
      cases hsplit
      obtain ⟨hmore, hplain, hstart⟩ := ih htaken
      exact ⟨congrArg (c :: ·) hmore, List.forall_mem_cons.mpr ⟨hend, hplain⟩, hstart⟩

/-- Whether an authority can be read does not depend on what follows it. -/
theorem takeAuthority_append {text rest : List Char} (htext : ∀ c ∈ text, isTerminator c = false)
    (hrest : ∀ c ∈ rest.head?, isTerminator c = true) (seen : Scan) :
    takeAuthority seen (text ++ rest) = (takeAuthority seen text).map fun _ => (text, rest) := by
  induction text generalizing seen with
  | nil =>
    cases rest with
    | nil =>
      rw [List.append_nil, takeAuthority]
      split <;> rfl
    | cons c rest =>
      rw [List.nil_append, takeAuthority, takeAuthority, if_pos (hrest c rfl)]
      split <;> rfl
  | cons c text ih =>
    obtain ⟨hc, htext⟩ := List.forall_mem_cons.mp htext
    rw [List.cons_append, takeAuthority, takeAuthority, if_neg (Bool.eq_false_iff.mp hc),
      if_neg (Bool.eq_false_iff.mp hc)]
    cases hstep : seen.step c with
    | error e => rfl
    | ok next =>
      have hmore := ih htext next
      simp only [bind, Except.bind] at hmore ⊢
      rw [hmore]
      cases takeAuthority next text <;> rfl

theorem Authority.ofText_ok {cs : List Char} {a : Authority} (h : ofText cs = .ok a) :
    a.text = cs ∧ ∀ c ∈ cs, isTerminator c = false := by
  rw [ofText] at h
  split at h
  · cases h
  · obtain ⟨⟨text, rest⟩, htaken, hwhole⟩ := bind_eq_ok_iff.mp h
    obtain ⟨hsplit, hplain, -⟩ := takeAuthority_ok htaken
    cases rest with
    | nil =>
      cases hwhole
      rw [hsplit, List.append_nil]
      exact ⟨rfl, hplain⟩
    | cons c rest => cases hwhole

/-! ### Web addresses -/

def IsWebScheme (scheme : List Char) : Prop :=
  scheme = "http".toList ∨ scheme = "https".toList

private theorem splitScheme_web {scheme : List Char} (h : IsWebScheme scheme) (cs : List Char) :
    splitScheme (scheme ++ "://".toList ++ cs) = .ok (some scheme, cs) := by
  rcases h with rfl | rfl
  · rfl
  · rfl

private theorem ofSchemed_ok_iff {scheme text rest : List Char} (htext : ∀ c ∈ text, isTerminator c = false)
    (hrest : ∀ c ∈ rest.head?, isTerminator c = true) {u : Uri} :
    ofSchemed scheme (text ++ rest) = .ok u ↔
      (∃ a, Authority.ofText text = .ok a) ∧
        ∃ target, PathAndQuery.ofText rest = .ok target ∧ u = ⟨some scheme, some ⟨text⟩, target⟩ := by
  have hself := @takeAuthority_append text [] htext nofun Scan.start
  have htaken := takeAuthority_append htext hrest Scan.start
  rw [List.append_nil] at hself
  cases text with
  | nil =>
    have hempty : takeAuthority Scan.start [] = .ok ([], []) := rfl
    have hnone : ¬∃ a, Authority.ofText [] = .ok a := by
      rintro ⟨a, ha⟩
      cases ha
    rw [ofSchemed, htaken, hempty]
    constructor
    · intro h
      split at h <;> cases h
    · intro h
      exact absurd h.1 hnone
  | cons c text =>
    rw [ofSchemed, Authority.ofText, htaken]
    cases hread : takeAuthority Scan.start (c :: text) with
    | error e =>
      constructor
      · intro h
        cases h
      · rintro ⟨⟨a, ha⟩, -⟩
        cases ha
    | ok read =>
      rw [hread] at hself
      obtain rfl : (c :: text, []) = read := (Except.ok.inj hself).symm
      show PathAndQuery.ofText rest >>= (fun target =>
        pure ⟨some scheme, some ⟨c :: text⟩, target⟩) = Except.ok u ↔ _
      rw [bind_eq_ok_iff]
      constructor
      · rintro ⟨target, htarget, hu⟩
        cases hu
        exact ⟨⟨⟨c :: text⟩, rfl⟩, target, htarget, rfl⟩
      · rintro ⟨-, target, htarget, rfl⟩
        exact ⟨target, htarget, rfl⟩

/-- A web address is read piece by piece. -/
theorem ofText_web_ok_iff {scheme text rest : List Char} (hscheme : IsWebScheme scheme)
    (htext : ∀ c ∈ text, isTerminator c = false) (hrest : ∀ c ∈ rest.head?, isTerminator c = true)
    {u : Uri} :
    ofText (scheme ++ "://".toList ++ (text ++ rest)) = .ok u ↔
      isTooLong (scheme ++ "://".toList ++ (text ++ rest)) = false ∧
        (∃ a, Authority.ofText text = .ok a) ∧
        ∃ target, PathAndQuery.ofText rest = .ok target ∧
          u = ⟨some scheme, some ⟨text⟩, target⟩ := by
  have hsplit := splitScheme_web hscheme (text ++ rest)
  have hstart : (scheme ++ "://".toList ++ (text ++ rest)).head? = some 'h' := by
    rcases hscheme with rfl | rfl <;> rfl
  rw [ofText]
  generalize scheme ++ "://".toList ++ (text ++ rest) = address at hsplit hstart ⊢
  cases hlong : isTooLong address with
  | true => simp
  | false =>
    cases address with
    | nil => cases hstart
    | cons first more =>
      cases hstart
      rw [if_neg Bool.false_ne_true, if_neg (by simp), if_neg (by simp), hsplit]
      show ofSchemed scheme (text ++ rest) = .ok u ↔ _
      rw [ofSchemed_ok_iff htext hrest]
      simp

/-! ### What was read -/

/-- The parts of a URI can be told from each other. -/
structure IsWellFormed (u : Uri) : Prop where
  authority : ∀ a, u.authority = some a → ∀ c ∈ a.text, isTerminator c = false
  target : u.target.IsWellFormed
  rooted : ∀ c ∈ u.target.path.head?, c = '/'

private theorem splitScheme_none {cs rest : List Char} (h : splitScheme cs = .ok (none, rest)) :
    rest = cs := by
  rw [splitScheme] at h
  split at h
  · cases h
  · split at h
    · cases h
    · split at h
      · cases h
        rfl
      · split at h
        · cases h
          rfl
        · split at h <;> cases h

private theorem ofSchemed_ok {scheme cs : List Char} {u : Uri} (h : ofSchemed scheme cs = .ok u) :
    u.scheme = some scheme ∧ ∃ text left, takeAuthority Scan.start cs = .ok (text, left) ∧
      text ≠ [] ∧ u.authority = some ⟨text⟩ ∧ PathAndQuery.ofText left = .ok u.target := by
  rw [ofSchemed] at h
  split at h
  · cases h
  · obtain ⟨⟨text, left⟩, htaken, hread⟩ := bind_eq_ok_iff.mp h
    cases text with
    | nil => cases hread
    | cons c text =>
      obtain ⟨target, htarget, hu⟩ := bind_eq_ok_iff.mp hread
      cases hu
      exact ⟨rfl, c :: text, left, htaken, List.cons_ne_nil c text, rfl, htarget⟩

private theorem ofBare_ok {cs : List Char} {u : Uri} (h : ofBare cs = .ok u) :
    u.scheme = none ∧ takeAuthority Scan.start cs = .ok (cs, []) ∧ u.authority = some ⟨cs⟩ ∧
      u.target = ⟨[], none⟩ := by
  obtain ⟨⟨text, left⟩, htaken, hread⟩ := bind_eq_ok_iff.mp h
  obtain ⟨hsplit, -, -⟩ := takeAuthority_ok htaken
  cases left with
  | nil =>
    cases hread
    rw [List.append_nil] at hsplit
    exact ⟨rfl, hsplit ▸ htaken, hsplit ▸ rfl, rfl⟩
  | cons c more => cases hread

/-- A text is read as a path alone, or as an authority behind a scheme or alone. -/
theorem ofText_ok_cases {cs : List Char} {u : Uri} (h : ofText cs = .ok u) :
    (cs.head? = some '/' ∧ u.authority = none ∧ PathAndQuery.ofText cs = .ok u.target) ∨
      ∃ rest text left, splitScheme cs = .ok (u.scheme, rest) ∧
        takeAuthority Scan.start rest = .ok (text, left) ∧ text ≠ [] ∧
        u.authority = some ⟨text⟩ ∧ PathAndQuery.ofText left = .ok u.target := by
  rw [ofText] at h
  split at h
  · cases h
  · split at h
    · cases h
    next hsome =>
    split at h
    next hslash =>
      obtain ⟨target, htarget, hu⟩ := bind_eq_ok_iff.mp h
      cases hu
      exact .inl ⟨hslash, rfl, htarget⟩
    next =>
      obtain ⟨⟨scheme, rest⟩, hscheme, hread⟩ := bind_eq_ok_iff.mp h
      right
      cases scheme with
      | some scheme =>
        obtain ⟨hu, text, left, hauthority⟩ := ofSchemed_ok hread
        exact ⟨rest, text, left, hu ▸ hscheme, hauthority⟩
      | none =>
        obtain ⟨hu, htaken, ha, htarget⟩ := ofBare_ok hread
        obtain rfl := splitScheme_none hscheme
        refine ⟨rest, rest, [], hu ▸ hscheme, htaken, ?_, ha, htarget ▸ rfl⟩
        simpa using hsome

theorem isWellFormed_of_ofText {cs : List Char} {u : Uri} (h : ofText cs = .ok u) :
    u.IsWellFormed := by
  rcases ofText_ok_cases h with ⟨hslash, hnone, htarget⟩ | ⟨_, text, left, -, htaken, -, ha, htarget⟩
  · refine ⟨fun a ha => ?_, PathAndQuery.isWellFormed_of_ofText htarget,
      PathAndQuery.isRooted_of_ofText htarget fun c hc => ?_⟩
    · rw [hnone] at ha
      cases ha
    · cases hslash.symm.trans hc
      rfl
  · obtain ⟨-, hplain, hstart⟩ := takeAuthority_ok htaken
    refine ⟨fun a hread => ?_, PathAndQuery.isWellFormed_of_ofText htarget,
      PathAndQuery.isRooted_of_ofText htarget hstart⟩
    cases ha.symm.trans hread
    exact hplain

end RpcGateway.Uri
