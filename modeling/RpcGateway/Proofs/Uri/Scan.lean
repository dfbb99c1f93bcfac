import RpcGateway.Proofs.Uri.Reading
/-!
# The scan of an authority

What one character does to the scan of an authority, and what a whole text does to it. A text can be read
as an authority exactly if the scan takes all of its characters and can end there.
-/
namespace RpcGateway.Uri

open Outcome (bind_eq_ok_iff)

namespace Scan

/-- What a scan knows after it has taken one more character. -/
structure Takes (seen : Scan) (c : Char) (next : Scan) : Prop where
  opened : next.opened = (seen.opened || c == '[')
  closed : next.closed = (seen.closed || c == ']')
  percent : c ≠ ']' → c ≠ '@' → next.percent = (seen.percent || c == '%')
  colons : c ≠ ':' → next.colons ≤ seen.colons
  opens : c = '[' → seen.opened = false
  closes : c = ']' → seen.opened = true ∧ seen.closed = false ∧ next.colons = 0
  restarts : c = '@' → next.colons = 0 ∧ next.percent = false
  char : c ∈ ":[]@%".toList ∨ isAuthorityChar c = true

theorem takes_of_step {seen next : Scan} {c : Char} (h : seen.step c = .ok next) :
    seen.Takes c next := by
  rw [step] at h
  split at h
  next hc =>
    subst hc
    split at h <;> cases h
    constructor <;> simp
  next hcolon =>
  split at h
  next hc =>
    subst hc
    split at h <;> cases h
    constructor <;> simp_all
  next hopen =>
  split at h
  next hc =>
    subst hc
    split at h <;> cases h
    constructor <;> simp_all
  next hclose =>
  split at h
  next hc =>
    subst hc
    cases h
    constructor <;> simp
  next hat =>
  split at h
  next hc =>
    subst hc
    cases h
    constructor <;> simp
  next hpercent =>
  split at h
  next hc =>
    cases h
    constructor <;> simp_all
  next => cases h

/-- The scan of a whole text. -/
def run (seen : Scan) (cs : List Char) : Except Error Scan :=
  cs.foldlM step seen

theorem run_cons_ok_iff {seen last : Scan} {c : Char} {rest : List Char} :
    seen.run (c :: rest) = .ok last ↔ ∃ next, seen.step c = .ok next ∧ next.run rest = .ok last := by
  rw [run, List.foldlM_cons]
  exact bind_eq_ok_iff

theorem run_append_ok_iff {seen last : Scan} {first rest : List Char} :
    seen.run (first ++ rest) = .ok last ↔
      ∃ next, seen.run first = .ok next ∧ next.run rest = .ok last := by
  rw [run, List.foldlM_append]
  exact bind_eq_ok_iff

/-- What a scan knows after it has taken a whole text. -/
structure Spans (seen : Scan) (cs : List Char) (last : Scan) : Prop where
  opened : last.opened = (seen.opened || cs.contains '[')
  closed : last.closed = (seen.closed || cs.contains ']')
  ordered : (seen.closed = true → seen.opened = true) → last.closed = true → last.opened = true
  percent : ']' ∉ cs → '@' ∉ cs → last.percent = (seen.percent || cs.contains '%')
  colons : ':' ∉ cs → last.colons ≤ seen.colons
  opens : '[' ∈ cs → seen.opened = false
  closes : ']' ∈ cs → seen.closed = false
  chars : ∀ c ∈ cs, c ∈ ":[]@%".toList ∨ isAuthorityChar c = true

private theorem Spans.nil (seen : Scan) : seen.Spans [] seen := by
  constructor <;> simp

private theorem Spans.cons {seen next last : Scan} {c : Char} {rest : List Char} (hc : seen.Takes c next)
    (hrest : next.Spans rest last) : seen.Spans (c :: rest) last where
  opened := by rw [hrest.opened, hc.opened, List.contains_cons, Bool.or_assoc, BEq.comm]
  closed := by rw [hrest.closed, hc.closed, List.contains_cons, Bool.or_assoc, BEq.comm]
  ordered hseen := by
    apply hrest.ordered
    intro hclosed
    rw [hc.closed, Bool.or_eq_true, beq_iff_eq] at hclosed
    have hopened : seen.opened = true := hclosed.elim hseen fun h => (hc.closes h).1
    rw [hc.opened, hopened, Bool.true_or]
  percent hclose hat := by
    rw [List.mem_cons, not_or] at hclose hat
    rw [hrest.percent hclose.2 hat.2, hc.percent (Ne.symm hclose.1) (Ne.symm hat.1),
      List.contains_cons, Bool.or_assoc, BEq.comm]
  colons hcolon := by
    rw [List.mem_cons, not_or] at hcolon
    exact Nat.le_trans (hrest.colons hcolon.2) (hc.colons (Ne.symm hcolon.1))
  opens hopen := by
    rcases List.mem_cons.mp hopen with hhere | hlater
    · exact hc.opens hhere.symm
    · have hnext := hrest.opens hlater
      rw [hc.opened, Bool.or_eq_false_iff] at hnext
      exact hnext.1
  closes hclose := by
    rcases List.mem_cons.mp hclose with hhere | hlater
    · exact (hc.closes hhere.symm).2.1
    · have hnext := hrest.closes hlater
      rw [hc.closed, Bool.or_eq_false_iff] at hnext
      exact hnext.1
  chars := List.forall_mem_cons.mpr ⟨hc.char, hrest.chars⟩

theorem spans_of_run {seen last : Scan} {cs : List Char} (h : seen.run cs = .ok last) :
    seen.Spans cs last := by
  induction cs generalizing seen with
  | nil =>
    cases h
    exact Spans.nil _
  | cons c rest ih =>
    obtain ⟨next, hstep, hrest⟩ := run_cons_ok_iff.mp h
    exact (ih hrest).cons (takes_of_step hstep)

private theorem step_plain (seen : Scan) {c : Char} (h : isAuthorityChar c = true) :
    seen.step c = .ok { seen with atSign := false } := by
  have hne (mark : Char) (hmark : isAuthorityChar mark = false) : c ≠ mark := by
    intro hc
    rw [hc, hmark] at h
    cases h
  rw [step, if_neg (hne ':' (by decide)), if_neg (hne '[' (by decide)), if_neg (hne ']' (by decide)),
    if_neg (hne '@' (by decide)), if_neg (hne '%' (by decide)), if_pos h]

theorem run_plain {seen : Scan} {cs : List Char} (hseen : seen.atSign = false)
    (h : ∀ c ∈ cs, isAuthorityChar c = true) : seen.run cs = .ok seen := by
  induction cs with
  | nil => rfl
  | cons c rest ih =>
    obtain ⟨hc, hrest⟩ := List.forall_mem_cons.mp h
    apply run_cons_ok_iff.mpr
    refine ⟨_, step_plain seen hc, ?_⟩
    have hsame : ({ seen with atSign := false } : Scan) = seen := by rw [← hseen]
    rw [hsame]
    exact ih hrest

/-- A port is taken where no colon is left to account for. -/
theorem run_port {seen : Scan} (hcolons : seen.colons = 0) {port : List Char}
    (hport : ∀ c ∈ port, c.isDigit = true) :
    seen.run (':' :: port) = .ok { seen with colons := 1, atSign := false } := by
  apply run_cons_ok_iff.mpr
  refine ⟨{ seen with colons := 1, atSign := false }, ?_, ?_⟩
  · rw [step, if_pos rfl, hcolons, if_neg (by decide)]
  · apply run_plain rfl
    intro c hc
    simp [isAuthorityChar, Char.isAlphanum, hport c hc]

theorem canEnd_iff {seen : Scan} :
    seen.canEnd = true ↔
      seen.opened = seen.closed ∧ seen.colons ≤ 1 ∧ seen.atSign = false ∧ seen.percent = false := by
  simp [canEnd, and_assoc]

/-- Behind a closed bracket only an at sign makes a scan forget a percent sign. -/
theorem Spans.percent_of_closed {seen last : Scan} {cs : List Char} (h : seen.Spans cs last)
    (hclosed : seen.closed = true) (hat : '@' ∉ cs) (hend : last.canEnd = true) :
    seen.percent = false := by
  have hclose : ']' ∉ cs := by
    intro hmem
    have hagain := h.closes hmem
    rw [hclosed] at hagain
    cases hagain
  have hlast := (canEnd_iff.mp hend).2.2.2
  rw [h.percent hclose hat, Bool.or_eq_false_iff] at hlast
  exact hlast.1

private theorem step_atSign (seen : Scan) (atSign : Bool) (c : Char) :
    ({ seen with atSign := atSign } : Scan).step c = seen.step c := by
  rfl

theorem run_atSign (seen : Scan) (atSign : Bool) {cs : List Char} (h : cs ≠ []) :
    ({ seen with atSign := atSign } : Scan).run cs = seen.run cs := by
  cases cs with
  | nil => exact absurd rfl h
  | cons c rest => rw [run, List.foldlM_cons, step_atSign, run, List.foldlM_cons]

end Scan

theorem takeAuthority_isOk_iff {seen : Scan} {cs : List Char} (h : ∀ c ∈ cs, isTerminator c = false) :
    (∃ split, takeAuthority seen cs = .ok split) ↔
      ∃ last, seen.run cs = .ok last ∧ last.canEnd = true := by
  induction cs generalizing seen with
  | nil =>
    rw [takeAuthority]
    cases hend : seen.canEnd with
    | true =>
      simp only [if_true, Except.ok.injEq, exists_eq', true_iff]
      exact ⟨seen, rfl, hend⟩
    | false =>
      simp only [Bool.false_eq_true, if_false, reduceCtorEq, exists_false, false_iff]
      intro htaken
      obtain ⟨last, hrun, hlast⟩ := htaken
      cases hrun
      rw [hend] at hlast
      cases hlast
  | cons c rest ih =>
    obtain ⟨hc, hrest⟩ := List.forall_mem_cons.mp h
    rw [takeAuthority, if_neg (Bool.eq_false_iff.mp hc)]
    constructor
    · intro htaken
      obtain ⟨split, htake⟩ := htaken
      obtain ⟨next, hstep, htake⟩ := bind_eq_ok_iff.mp htake
      obtain ⟨more, hmore, -⟩ := bind_eq_ok_iff.mp htake
      obtain ⟨last, hrun, hend⟩ := (ih hrest).mp ⟨more, hmore⟩
      exact ⟨last, Scan.run_cons_ok_iff.mpr ⟨next, hstep, hrun⟩, hend⟩
    · intro hscanned
      obtain ⟨last, hrun, hend⟩ := hscanned
      obtain ⟨next, hstep, hrun⟩ := Scan.run_cons_ok_iff.mp hrun
      obtain ⟨⟨text, left⟩, hmore⟩ := (ih hrest).mpr ⟨last, hrun, hend⟩
      refine ⟨(c :: text, left), ?_⟩
      rw [hstep]
      show takeAuthority next rest >>= _ = _
      rw [hmore]
      rfl

end RpcGateway.Uri
