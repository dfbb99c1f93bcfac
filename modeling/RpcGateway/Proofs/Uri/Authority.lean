import Mathlib.Data.List.Basic
import Mathlib.Data.List.TakeWhile
import RpcGateway.Proofs.Text.Numeral
import RpcGateway.Proofs.Uri.Scan
import RpcGateway.Text.Cut
/-!
# Host and port of an authority

Host and port are cut out of an authority at different marks: the host ends at its closing bracket or at
the first colon, the port begins after the last colon. Joined by a colon they are cut out again as they
were. But what they are joined to need not be an authority: a bracket may have stayed in the user
information or behind the first colon, and then the one in the host has lost its partner.
-/
namespace RpcGateway.Uri.Authority

open Outcome (bind_eq_ok_iff)

private theorem ofText_isOk_iff {cs : List Char} (h : ∀ c ∈ cs, isTerminator c = false) :
    (∃ a, ofText cs = .ok a) ↔
      cs ≠ [] ∧ ∃ last, Scan.start.run cs = .ok last ∧ last.canEnd = true := by
  rw [← takeAuthority_isOk_iff h]
  cases cs with
  | nil =>
    simp only [ne_eq, not_true, false_and, iff_false]
    intro hread
    obtain ⟨a, ha⟩ := hread
    cases ha
  | cons c rest =>
    rw [ofText]
    constructor
    · intro hread
      obtain ⟨a, ha⟩ := hread
      obtain ⟨split, hsplit, -⟩ := bind_eq_ok_iff.mp ha
      exact ⟨List.cons_ne_nil c rest, split, hsplit⟩
    · intro htaken
      obtain ⟨-, ⟨text, left⟩, hsplit⟩ := htaken
      obtain ⟨hwhole, -, hleft⟩ := takeAuthority_ok hsplit
      have hnone : left = [] := by
        cases left with
        | nil => rfl
        | cons d more =>
          have hd := h d (by simp [hwhole])
          rw [hleft d rfl] at hd
          cases hd
      subst hnone
      refine ⟨⟨text⟩, ?_⟩
      rw [hsplit]
      rfl

private theorem ofText_of_takeAuthority {cs text left : List Char}
    (h : takeAuthority Scan.start cs = .ok (text, left)) (hsome : text ≠ []) :
    ofText text = .ok ⟨text⟩ := by
  obtain ⟨hsplit, hplain, hleft⟩ := takeAuthority_ok h
  rw [hsplit, takeAuthority_append hplain hleft] at h
  have htaken : ∃ split, takeAuthority Scan.start text = .ok split := by
    cases hread : takeAuthority Scan.start text with
    | error e =>
      rw [hread] at h
      cases h
    | ok split => exact ⟨split, rfl⟩
  obtain ⟨a, ha⟩ := (ofText_isOk_iff hplain).mpr ⟨hsome, (takeAuthority_isOk_iff hplain).mp htaken⟩
  rw [ha, ← (ofText_ok ha).1]

theorem ofText_of_uri {cs : List Char} {u : Uri} {a : Authority} (h : Uri.ofText cs = .ok u)
    (ha : u.authority = some a) : ofText a.text = .ok a := by
  rcases ofText_ok_cases h with ⟨-, hnone, -⟩ | ⟨_, text, left, -, htaken, hsome, htext, -⟩
  · rw [hnone] at ha
    cases ha
  · cases htext.symm.trans ha
    exact ofText_of_takeAuthority htaken hsome

/-! ### Marks -/

private theorem decide_ne_of_notMem {mark : Char} {cs : List Char} (h : mark ∉ cs) :
    ∀ c ∈ cs, decide (c ≠ mark) = true := by
  intro c hc
  have hne : c ≠ mark := fun hmark => h (hmark ▸ hc)
  exact decide_eq_true hne

private theorem takeWhile_ne_append {mark : Char} {before : List Char} (h : mark ∉ before)
    (after : List Char) : (before ++ mark :: after).takeWhile (· ≠ mark) = before := by
  rw [List.takeWhile_append_of_pos (decide_ne_of_notMem h), List.takeWhile_cons_of_neg (by simp),
    List.append_nil]

private theorem notMem_takeWhile_ne (mark : Char) (cs : List Char) : mark ∉ cs.takeWhile (· ≠ mark) := by
  intro h
  simpa using List.mem_takeWhile_imp h

theorem notMem_afterLast (mark : Char) (cs : List Char) : mark ∉ afterLast mark cs := by
  rw [afterLast, List.mem_reverse]
  exact notMem_takeWhile_ne mark cs.reverse

theorem afterLast_eq_self {mark : Char} {cs : List Char} (h : mark ∉ cs) :
    afterLast mark cs = cs := by
  have hreverse : mark ∉ cs.reverse := by rwa [List.mem_reverse]
  rw [afterLast, List.takeWhile_eq_self_iff.mpr (decide_ne_of_notMem hreverse), List.reverse_reverse]

theorem afterLast_append_of_notMem {mark : Char} {after : List Char} (h : mark ∉ after)
    (before : List Char) : afterLast mark (before ++ mark :: after) = after := by
  have hreverse : (before ++ mark :: after).reverse = after.reverse ++ mark :: before.reverse := by simp
  have hafter : mark ∉ after.reverse := by rwa [List.mem_reverse]
  rw [afterLast, hreverse, takeWhile_ne_append hafter, List.reverse_reverse]

theorem exists_afterLast {mark : Char} {cs : List Char} (h : mark ∈ cs) :
    ∃ before, cs = before ++ mark :: afterLast mark cs := by
  obtain ⟨after, before, hreverse, hafter⟩ := List.eq_append_cons_of_mem (List.mem_reverse.mpr h)
  have hcs : cs = before.reverse ++ mark :: after.reverse := by
    rw [← List.reverse_inj, hreverse]
    simp
  have hlast : mark ∉ after.reverse := by rwa [List.mem_reverse]
  refine ⟨before.reverse, ?_⟩
  rw [hcs, afterLast_append_of_notMem hlast]

private theorem afterLast_append (mark : Char) (before after : List Char) :
    afterLast mark (before ++ mark :: after) = afterLast mark after := by
  by_cases h : mark ∈ after
  · obtain ⟨more, hafter⟩ := exists_afterLast h
    have hlast := notMem_afterLast mark after
    calc afterLast mark (before ++ mark :: after)
        = afterLast mark ((before ++ mark :: more) ++ mark :: afterLast mark after) := by
          rw [List.append_assoc, List.cons_append, ← hafter]
      _ = afterLast mark after := afterLast_append_of_notMem hlast _
  · rw [afterLast_append_of_notMem h, afterLast_eq_self h]

private theorem afterLast_append_of_notMem_right {mark : Char} {after : List Char} (h : mark ∉ after)
    (before : List Char) : afterLast mark (before ++ after) = afterLast mark before ++ after := by
  have hafter : mark ∉ after.reverse := by rwa [List.mem_reverse]
  rw [afterLast, afterLast, List.reverse_append,
    List.takeWhile_append_of_pos (decide_ne_of_notMem hafter), List.reverse_append,
    List.reverse_reverse]

/-! ### Host and port -/

private theorem host_cases (a : Authority) :
    (∃ rest, a.hostPort = '[' :: rest ∧ a.host = '[' :: rest.takeWhile (· ≠ ']') ++ [']']) ∨
      a.hostPort.head? ≠ some '[' ∧ a.host = a.hostPort.takeWhile (· ≠ ':') := by
  rw [host]
  split
  next rest hbracket => exact .inl ⟨rest, hbracket, rfl⟩
  next hplain =>
    refine .inr ⟨fun hhead => ?_, rfl⟩
    obtain ⟨rest, hrest⟩ := List.head?_eq_some_iff.mp hhead
    exact hplain rest hrest

private theorem notMem_host (a : Authority) : '@' ∉ a.host := by
  have hnone := notMem_afterLast '@' a.text
  rcases a.host_cases with ⟨rest, hbracket, hhost⟩ | ⟨-, hhost⟩
  · rw [← hostPort, hbracket, List.mem_cons, not_or] at hnone
    rw [hhost, List.cons_append, List.mem_cons, List.mem_append, List.mem_singleton]
    rintro (hopen | hinside | hclose)
    · exact absurd hopen (by decide)
    · exact hnone.2 (List.takeWhile_subset _ hinside)
    · exact absurd hclose (by decide)
  · rw [hhost]
    exact fun h => hnone (List.takeWhile_subset _ h)

private theorem head?_host {a : Authority} (h : a.host ≠ []) : a.host.head? = a.hostPort.head? := by
  rcases a.host_cases with ⟨rest, hbracket, hhost⟩ | ⟨-, hhost⟩
  · rw [hhost, hbracket]
    rfl
  · have hwhole : a.host ++ a.hostPort.dropWhile (· ≠ ':') = a.hostPort := by
      rw [hhost]
      exact List.takeWhile_append_dropWhile
    rw [← hwhole, List.head?_append_of_ne_nil a.host h]

/-- A host and a port that are joined by a colon are cut out again as they were. -/
theorem host_join {a : Authority} (h : a.host ≠ []) {port : List Char} (hport : '@' ∉ port) :
    (⟨a.host ++ ':' :: port⟩ : Authority).host = a.host := by
  have hwhole : (⟨a.host ++ ':' :: port⟩ : Authority).hostPort = a.host ++ ':' :: port := by
    apply afterLast_eq_self
    simp [a.notMem_host, hport]
  rcases a.host_cases with ⟨rest, -, hhost⟩ | ⟨hhead, hhost⟩
  · have hinside := notMem_takeWhile_ne ']' rest
    rw [host, hwhole, hhost]
    simp only [List.cons_append, List.append_assoc, List.nil_append]
    rw [takeWhile_ne_append hinside]
  · have hcolon : ':' ∉ a.host := hhost ▸ notMem_takeWhile_ne ':' a.hostPort
    rw [host, hwhole]
    split
    next rest hbracket =>
      have hopen : (a.host ++ ':' :: port).head? = some '[' := by rw [hbracket, List.head?_cons]
      rw [List.head?_append_of_ne_nil a.host h, head?_host h] at hopen
      exact absurd hopen hhead
    next => exact takeWhile_ne_append hcolon port

theorem port?_join (host : List Char) {port : List Char} (hport : ':' ∉ port) :
    (⟨host ++ ':' :: port⟩ : Authority).port? =
      (Numeral.readNat Numeral.maxWord16 port).toOption := by
  have hcolon : (host ++ ':' :: port).contains ':' = true := by simp
  rw [port?, if_pos hcolon, afterLast_append_of_notMem hport]

/-! ### Where a host can stand -/

/-- A host with both of its brackets or none, and with a percent sign only if it has brackets. -/
def StandsAlone (host : List Char) : Prop :=
  ('[' ∈ host ↔ ']' ∈ host) ∧ ('%' ∈ host → '[' ∈ host)

instance (host : List Char) : Decidable (StandsAlone host) :=
  inferInstanceAs (Decidable (_ ∧ _))

private theorem exists_run_hostPort {a : Authority} {last : Scan} (h : Scan.start.run a.text = .ok last) :
    ∃ seen : Scan, seen.run a.hostPort = .ok last ∧ seen.colons = 0 ∧ seen.percent = false ∧
      (seen.closed = true → seen.opened = true) := by
  by_cases hat : '@' ∈ a.text
  · obtain ⟨user, hwhole⟩ := exists_afterLast hat
    rw [hwhole] at h
    obtain ⟨before, huser, h⟩ := Scan.run_append_ok_iff.mp h
    obtain ⟨seen, hstep, hrest⟩ := Scan.run_cons_ok_iff.mp h
    have htakes := Scan.takes_of_step hstep
    obtain ⟨hcolons, hpercent⟩ := htakes.restarts rfl
    refine ⟨seen, hrest, hcolons, hpercent, fun hclosed => ?_⟩
    have hbefore : before.closed = true := by simpa using htakes.closed.symm.trans hclosed
    have hopened := (Scan.spans_of_run huser).ordered nofun hbefore
    rw [htakes.opened, hopened, Bool.true_or]
  · refine ⟨Scan.start, ?_, rfl, rfl, nofun⟩
    rwa [hostPort, afterLast_eq_self hat]

private theorem exists_tail {a : Authority} {last : Scan} (h : Scan.start.run a.text = .ok last)
    (hend : last.canEnd = true) : ∃ tail, a.hostPort = a.host ++ tail := by
  rcases a.host_cases with ⟨rest, hbracket, hhost⟩ | ⟨-, hhost⟩
  · obtain ⟨seen, hrun, -, -, hordered⟩ := exists_run_hostPort h
    have hspans := Scan.spans_of_run hrun
    have hopened : seen.opened = false := hspans.opens (hbracket ▸ List.mem_cons_self)
    have hclosed : seen.closed = false := by
      cases hseen : seen.closed with
      | false => rfl
      | true => exact absurd (hordered hseen) (by simp [hopened])
    have hclose : ']' ∈ rest := by
      have hbalanced := (Scan.canEnd_iff.mp hend).1
      rw [hspans.opened, hspans.closed, hclosed, hbracket] at hbalanced
      simpa using hbalanced
    obtain ⟨inside, tail, hrest, hinside⟩ := List.eq_append_cons_of_mem hclose
    refine ⟨tail, ?_⟩
    rw [hhost, hbracket, hrest, takeWhile_ne_append hinside]
    simp
  · rw [hhost]
    exact ⟨_, (List.takeWhile_append_dropWhile).symm⟩

/-- No colon is left to account for behind a host. -/
private theorem colons_of_run_host {a : Authority} {seen next : Scan} (h : seen.run a.host = .ok next)
    (hseen : seen.colons = 0) : next.colons = 0 := by
  rcases a.host_cases with ⟨rest, -, hhost⟩ | ⟨-, hhost⟩
  · rw [hhost] at h
    obtain ⟨before, -, h⟩ := Scan.run_append_ok_iff.mp h
    obtain ⟨after, hstep, h⟩ := Scan.run_cons_ok_iff.mp h
    cases h
    exact ((Scan.takes_of_step hstep).closes rfl).2.2
  · have hcolon : ':' ∉ a.host := hhost ▸ notMem_takeWhile_ne ':' a.hostPort
    have hle := (Scan.spans_of_run h).colons hcolon
    omega

private theorem exists_run_host {a : Authority} {last : Scan} (h : Scan.start.run a.text = .ok last)
    (hend : last.canEnd = true) :
    ∃ (seen next : Scan) (tail : List Char), seen.run a.host = .ok next ∧ next.run tail = .ok last ∧
      '@' ∉ tail ∧ seen.colons = 0 ∧ seen.percent = false := by
  obtain ⟨seen, hrun, hcolons, hpercent, -⟩ := exists_run_hostPort h
  obtain ⟨tail, hwhole⟩ := exists_tail h hend
  have hat := notMem_afterLast '@' a.text
  rw [← hostPort, hwhole, List.mem_append, not_or] at hat
  rw [hwhole] at hrun
  obtain ⟨next, hhost, htail⟩ := Scan.run_append_ok_iff.mp hrun
  exact ⟨seen, next, tail, hhost, htail, hat.2, hcolons, hpercent⟩

private theorem run_host_of_brackets {a : Authority} {last : Scan} (h : Scan.start.run a.text = .ok last)
    (hend : last.canEnd = true) (hopen : '[' ∈ a.host) (hclose : ']' ∈ a.host) :
    ∃ next : Scan, Scan.start.run a.host = .ok next ∧ next.colons = 0 ∧ next.percent = false ∧
      next.opened = true ∧ next.closed = true := by
  obtain ⟨seen, next, tail, hhost, htail, hat, hcolons, hpercent⟩ := exists_run_host h hend
  have hspans := Scan.spans_of_run hhost
  have hopened := hspans.opens hopen
  have hclosed := hspans.closes hclose
  have hseen : seen = { Scan.start with atSign := seen.atSign } := by
    cases seen
    simp_all [Scan.start]
  have hnextClosed : next.closed = true := by simp [hspans.closed, hclose]
  have hnextPercent := (Scan.spans_of_run htail).percent_of_closed hnextClosed hat hend
  refine ⟨next, ?_, colons_of_run_host hhost hcolons, hnextPercent, ?_, hnextClosed⟩
  · rw [hseen, Scan.run_atSign _ _ (List.ne_nil_of_mem hopen)] at hhost
    exact hhost
  · simp [hspans.opened, hopen]

private theorem run_host_of_no_bracket {a : Authority} {last : Scan} (h : Scan.start.run a.text = .ok last)
    (hend : last.canEnd = true) (hopen : '[' ∉ a.host) (hclose : ']' ∉ a.host)
    (hpercent : '%' ∉ a.host) : Scan.start.run a.host = .ok Scan.start := by
  obtain ⟨seen, next, tail, hhost, -⟩ := exists_run_host h hend
  have hcolon : ':' ∉ a.host := by
    rcases a.host_cases with ⟨rest, -, hbracket⟩ | ⟨-, hplain⟩
    · exact absurd (hbracket ▸ List.mem_cons_self) hopen
    · exact hplain ▸ notMem_takeWhile_ne ':' a.hostPort
  apply Scan.run_plain rfl
  intro c hc
  have hchar := (Scan.spans_of_run hhost).chars c hc
  have hmark : c ∉ ":[]@%".toList := by
    intro hmem
    have hlist : c = ':' ∨ c = '[' ∨ c = ']' ∨ c = '@' ∨ c = '%' := by simpa using hmem
    rcases hlist with rfl | rfl | rfl | rfl | rfl
    · exact hcolon hc
    · exact hopen hc
    · exact hclose hc
    · exact a.notMem_host hc
    · exact hpercent hc
  exact hchar.resolve_left hmark

theorem isTerminator_of_mem_host {a : Authority} (h : ∀ c ∈ a.text, isTerminator c = false) :
    ∀ c ∈ a.host, isTerminator c = false := by
  have hmem : ∀ c ∈ a.hostPort, c ∈ a.text := by
    intro c hc
    rw [hostPort, afterLast, List.mem_reverse] at hc
    exact List.mem_reverse.mp (List.takeWhile_subset _ hc)
  intro c hc
  rcases a.host_cases with ⟨rest, hbracket, hhost⟩ | ⟨-, hhost⟩
  · rw [hhost, List.cons_append, List.mem_cons, List.mem_append, List.mem_singleton] at hc
    rcases hc with rfl | hinside | rfl
    · rfl
    · exact h c (hmem c (hbracket ▸ List.mem_cons_of_mem _ (List.takeWhile_subset _ hinside)))
    · rfl
  · rw [hhost] at hc
    exact h c (hmem c (List.takeWhile_subset _ hc))

theorem isTerminator_of_isDigit {c : Char} (h : c.isDigit = true) : isTerminator c = false := by
  rw [isTerminator, Bool.or_eq_false_iff, Bool.or_eq_false_iff]
  refine ⟨⟨?_, ?_⟩, ?_⟩ <;> apply beq_eq_false_iff_ne.mpr <;> rintro rfl <;> cases h

private theorem standsAlone_of_run {host port : List Char} (hhost : '@' ∉ host)
    (hport : ∀ c ∈ port, c.isDigit = true) {last : Scan}
    (h : Scan.start.run (host ++ ':' :: port) = .ok last) (hend : last.canEnd = true) :
    StandsAlone host := by
  have hmem (mark : Char) (hcolon : mark ≠ ':') (hdigit : mark.isDigit = false) :
      mark ∈ host ++ ':' :: port ↔ mark ∈ host := by
    have hnone : mark ∉ port := by
      intro hmark
      rw [hport mark hmark] at hdigit
      cases hdigit
    simp [hcolon, hnone]
  have hspans := Scan.spans_of_run h
  obtain ⟨hbalanced, -, -, hpercent⟩ := Scan.canEnd_iff.mp hend
  have hbrackets : '[' ∈ host ↔ ']' ∈ host := by
    have hsame : (host ++ ':' :: port).contains '[' = (host ++ ':' :: port).contains ']' := by
      rw [hspans.opened, hspans.closed] at hbalanced
      exact hbalanced
    rw [← hmem '[' (by decide) (by decide), ← hmem ']' (by decide) (by decide),
      ← List.contains_iff_mem, hsame, List.contains_iff_mem]
  refine ⟨hbrackets, fun hmark => ?_⟩
  -- Without a bracket nothing makes the scan forget a percent sign.
  by_contra hopen
  have hclose : ']' ∉ host ++ ':' :: port := by
    rw [hmem ']' (by decide) (by decide), ← hbrackets]
    exact hopen
  have hat : '@' ∉ host ++ ':' :: port := by
    rw [hmem '@' (by decide) (by decide)]
    exact hhost
  rw [hspans.percent hclose hat] at hpercent
  simp [hmark] at hpercent

/-- The host of an authority can be joined to a port exactly if it stands alone. -/
theorem ofText_join_iff {a : Authority} (h : ofText a.text = .ok a) {port : List Char}
    (hport : ∀ c ∈ port, c.isDigit = true) :
    (∃ b, ofText (a.host ++ ':' :: port) = .ok b) ↔ StandsAlone a.host := by
  have hplain := (ofText_ok h).2
  have hjoined : ∀ c ∈ a.host ++ ':' :: port, isTerminator c = false := by
    rw [List.forall_mem_append, List.forall_mem_cons]
    exact ⟨isTerminator_of_mem_host hplain, rfl, fun c hc => isTerminator_of_isDigit (hport c hc)⟩
  obtain ⟨-, last, hrun, hend⟩ := (ofText_isOk_iff hplain).mp ⟨a, h⟩
  rw [ofText_isOk_iff hjoined]
  constructor
  · intro ⟨_, joined, hjoin, hjoinEnd⟩
    exact standsAlone_of_run a.notMem_host hport hjoin hjoinEnd
  · intro ⟨hbrackets, hpercent⟩
    refine ⟨by simp, ?_⟩
    by_cases hopen : '[' ∈ a.host
    · obtain ⟨next, hhost, hcolons, hnextPercent, hopened, hclosed⟩ :=
        run_host_of_brackets hrun hend hopen (hbrackets.mp hopen)
      refine ⟨_, Scan.run_append_ok_iff.mpr ⟨next, hhost, Scan.run_port hcolons hport⟩, ?_⟩
      simp [Scan.canEnd_iff, hopened, hclosed, hnextPercent]
    · have hhost := run_host_of_no_bracket hrun hend hopen (fun hclose => hopen (hbrackets.mpr hclose))
        (fun hmark => hopen (hpercent hmark))
      refine ⟨_, Scan.run_append_ok_iff.mpr ⟨Scan.start, hhost, Scan.run_port rfl hport⟩, ?_⟩
      rfl

/-! ### The port as it is written -/

/-- What is written as the port: the text behind the first colon after the host. -/
def portText? (a : Authority) : Option (List Char) :=
  (Cut.around? ':' (a.hostPort.drop a.host.length)).map Prod.snd

/-- The number of a port text is that of its last part, if it is a number at all. -/
def portNumber? (text : List Char) : Option Nat :=
  (Numeral.readNat Numeral.maxWord16 (afterLast ':' text)).toOption

theorem portNumber?_eq_some_iff {text : List Char} {n : Nat} :
    portNumber? text = some n ↔
      Numeral.Writes (afterLast ':' text) n ∧ n ≤ Numeral.maxWord16 := by
  rw [← Numeral.readNat_ok_iff, portNumber?]
  cases Numeral.readNat Numeral.maxWord16 (afterLast ':' text) with
  | error e => simp [Except.toOption]
  | ok m => simp [Except.toOption]

theorem port?_le {a : Authority} {n : Nat} (h : a.port? = some n) : n ≤ Numeral.maxWord16 := by
  rw [port?] at h
  split at h
  · exact (portNumber?_eq_some_iff.mp h).2
  · cases h

private theorem portNumber?_eq_none {mark : Char} (before : List Char) {after : List Char}
    (hdigit : mark.isDigit = false) (hplus : mark ≠ '+') (hcolon : ':' ∉ mark :: after) :
    portNumber? (before ++ mark :: after) = none := by
  rw [Option.eq_none_iff_forall_ne_some]
  intro n hsome
  have hwrites := (portNumber?_eq_some_iff.mp hsome).1
  have hmem : mark ∈ afterLast ':' (before ++ mark :: after) := by
    rw [afterLast_append_of_notMem_right hcolon]
    simp
  have hnumeral := hwrites.isNumeralChar mark hmem
  rcases hnumeral with hmark | hmark
  · exact hplus hmark
  · rw [hdigit] at hmark
    cases hmark

private theorem exists_lead (a : Authority) : ∃ lead, a.text = lead ++ a.hostPort := by
  by_cases hat : '@' ∈ a.text
  · obtain ⟨user, hwhole⟩ := exists_afterLast hat
    refine ⟨user ++ ['@'], ?_⟩
    rw [List.append_assoc, List.singleton_append]
    exact hwhole
  · exact ⟨[], (afterLast_eq_self hat).symm⟩

private theorem port?_eq_none {a : Authority} {tail : List Char} (hwhole : a.hostPort = a.host ++ tail)
    (htail : ':' ∉ tail) : a.port? = none := by
  rw [port?]
  split
  next hcolon =>
    show portNumber? a.text = none
    rcases a.host_cases with ⟨rest, -, hbracket⟩ | ⟨-, hplain⟩
    · obtain ⟨lead, hlead⟩ := a.exists_lead
      have htext : a.text = (lead ++ '[' :: rest.takeWhile (· ≠ ']')) ++ ']' :: tail := by
        rw [hlead, hwhole, hbracket]
        simp
      rw [htext]
      apply portNumber?_eq_none _ (by decide) (by decide)
      simp [htail]
    · have hnone : ':' ∉ a.hostPort := by
        rw [hwhole, hplain, List.mem_append, not_or]
        exact ⟨notMem_takeWhile_ne ':' a.hostPort, htail⟩
      by_cases hat : '@' ∈ a.text
      · obtain ⟨user, huser⟩ := exists_afterLast hat
        rw [huser]
        apply portNumber?_eq_none _ (by decide) (by decide)
        rw [← hostPort]
        simp [hnone]
      · rw [hostPort, afterLast_eq_self hat] at hnone
        exact absurd (List.contains_iff_mem.mp hcolon) hnone
  next => rfl

/-- The port of an authority is read off what is written behind the host. -/
theorem port?_eq {a : Authority} (h : ofText a.text = .ok a) :
    a.port? = a.portText?.bind portNumber? := by
  obtain ⟨-, last, hrun, hend⟩ := (ofText_isOk_iff (ofText_ok h).2).mp ⟨a, h⟩
  obtain ⟨tail, hwhole⟩ := exists_tail hrun hend
  have hdrop : a.hostPort.drop a.host.length = tail := by rw [hwhole, List.drop_left]
  rw [portText?, hdrop]
  cases htext : Cut.around? ':' tail with
  | none => exact port?_eq_none hwhole (Cut.around?_eq_none_iff.mp htext)
  | some parts =>
    obtain ⟨between, text⟩ := parts
    obtain ⟨htail, -⟩ := Cut.around?_eq_some_iff.mp htext
    obtain ⟨lead, hlead⟩ := a.exists_lead
    have hsplit : a.text = (lead ++ a.host ++ between) ++ ':' :: text := by
      rw [hlead, hwhole, htail]
      simp
    have hcolon : a.text.contains ':' = true := by simp [hsplit]
    rw [port?, if_pos hcolon, hsplit, afterLast_append]
    rfl

end RpcGateway.Uri.Authority
