import RpcGateway.Proofs.Reflection.Run
/-!
# Two servers in step

A simulation between two runs of a discovery. Two servers that give the same files for every query, and lack
the same, are asked the same, whatever becomes of their streams and however each says that it lacks
something. It is enough to look at one query on both sides; the whole run follows by induction.
-/
namespace RpcGateway.Reflection

open Schema (File)

/-- Whether a discovery goes on after an error that comes of a query. -/
def Query.forgives (e : Error) : Query → Bool
  | .file name => Schema.isStandard name && e.saysNotFound
  | .symbol _ => false
  | .services => false

private theorem Walk.takeInFile_error {w : Walk} {f : File} {e : Error} (h : w.takeInFile f = .error e) :
    e = .namelessFile ∧ f.nameText = "" := by
  by_cases hname : f.nameText = ""
  · rw [Walk.takeInFile, if_pos (by simp [hname])] at h
    exact ⟨(Except.error.inj h).symm, hname⟩
  · by_cases hin : f.nameText ∈ w.closure.names
    · rw [takeInFile_known hname hin] at h
      cases h
    · rw [takeInFile_new hname hin] at h
      cases h

private theorem Walk.takeIn_error {w : Walk} {files : List File} {e : Error} (h : w.takeIn files = .error e) :
    e = .namelessFile ∧ ∃ f ∈ files, f.nameText = "" := by
  induction files generalizing w with
  | nil => cases h
  | cons f rest ih =>
    rw [Walk.takeIn, List.foldlM_cons] at h
    cases hfirst : w.takeInFile f with
    | error e' =>
      rw [hfirst] at h
      cases h
      obtain ⟨he, hname⟩ := takeInFile_error hfirst
      exact ⟨he, f, List.mem_cons_self, hname⟩
    | ok w' =>
      rw [hfirst] at h
      obtain ⟨he, g, hg, hname⟩ := ih h
      exact ⟨he, g, List.mem_cons_of_mem f hg, hname⟩

variable {σ τ : Type} {server : Server σ} {server' : Server τ} {limit : Option Duration}

section

variable (R : Trace σ → Session → Trace τ → Session → Prop) (S : Trace σ → Error → Trace τ → Error → Prop)

/-- What comes of a query on both sides: the same files, or an error each after which both go on, or an
error each after which both stop. `R` relates two sides that go on, `S` two that have stopped. -/
inductive Answered (query : Query) : Trace σ × Session × Except Error (List File) →
    Trace τ × Session × Except Error (List File) → Prop
  | files {t : Trace σ} {s : Session} {t' : Trace τ} {s' : Session} {files : List File}
      (hgo : R t s t' s')
      (hnameless : ∀ f ∈ files, f.nameText = "" → S t .namelessFile t' .namelessFile) :
      Answered query (t, s, .ok files) (t', s', .ok files)
  | forgiven {t : Trace σ} {s : Session} {e : Error} {t' : Trace τ} {s' : Session} {e' : Error}
      (hforgives : query.forgives e = true) (hforgives' : query.forgives e' = true)
      (hgo : R t s.reopen t' s'.reopen) : Answered query (t, s, .error e) (t', s', .error e')
  | fatal {t : Trace σ} {s : Session} {e : Error} {t' : Trace τ} {s' : Session} {e' : Error}
      (hforgives : query.forgives e = false) (hforgives' : query.forgives e' = false)
      (hstop : S t e t' e') : Answered query (t, s, .error e) (t', s', .error e')

/-- How two runs compare: both found the same, or failed, or need more fuel. -/
inductive Paired {α : Type} : Trace σ × Session × Option (Except Error α) →
    Trace τ × Session × Option (Except Error α) → Prop
  | found {t : Trace σ} {s : Session} {t' : Trace τ} {s' : Session} (a : α) (hgo : R t s t' s') :
      Paired (t, s, some (.ok a)) (t', s', some (.ok a))
  | failed {t : Trace σ} {s : Session} {e : Error} {t' : Trace τ} {s' : Session} {e' : Error}
      (hstop : S t e t' e') : Paired (t, s, some (.error e)) (t', s', some (.error e'))
  | pending {t : Trace σ} {s : Session} {t' : Trace τ} {s' : Session} (hgo : R t s t' s') :
      Paired (t, s, none) (t', s', none)

end

variable {R : Trace σ → Session → Trace τ → Session → Prop} {S : Trace σ → Error → Trace τ → Error → Prop}
  {t : Trace σ} {s : Session} {t' : Trace τ} {s' : Session}

/-- Two sides that go on get the same of every query for files. -/
def InStep (server : Server σ) (server' : Server τ) (limit : Option Duration)
    (R : Trace σ → Session → Trace τ → Session → Prop) (S : Trace σ → Error → Trace τ → Error → Prop) :
    Prop :=
  ∀ t s t' s' query, query ≠ .services → R t s t' s' →
    Answered R S query (requestFiles server limit t s query) (requestFiles server' limit t' s' query)

theorem InStep.askSymbols (h : InStep server server' limit R S) (hgo : R t s t' s') (w : Walk)
    (symbols : List String) :
    Paired R S
      ((askSymbols server limit t s w symbols).1, (askSymbols server limit t s w symbols).2.1,
        some (askSymbols server limit t s w symbols).2.2)
      ((askSymbols server' limit t' s' w symbols).1, (askSymbols server' limit t' s' w symbols).2.1,
        some (askSymbols server' limit t' s' w symbols).2.2) := by
  induction symbols generalizing t s t' s' w with
  | nil => exact .found w hgo
  | cons symbol rest ih =>
    have hanswered := h t s t' s' (.symbol symbol) (by simp) hgo
    rw [Reflection.askSymbols, Reflection.askSymbols]
    revert hanswered
    generalize requestFiles server limit t s (.symbol symbol) = here
    generalize requestFiles server' limit t' s' (.symbol symbol) = there
    intro hanswered
    cases hanswered with
    | forgiven hforgives _ _ => cases hforgives
    | fatal _ _ hstop => exact .failed hstop
    | @files t₁ s₁ t₁' s₁' files hgo hnameless =>
      cases hstep : w.takeIn files with
      | error e =>
        obtain ⟨rfl, f, hf, hname⟩ := Walk.takeIn_error hstep
        simp only [hstep]
        exact .failed (hnameless f hf hname)
      | ok w' =>
        simp only [hstep]
        exact ih hgo w'

theorem InStep.askImports (h : InStep server server' limit R S) (fuel : Nat) (hgo : R t s t' s')
    (w : Walk) :
    Paired R S (askImports server limit fuel t s w) (askImports server' limit fuel t' s' w) := by
  induction fuel generalizing t s t' s' w with
  | zero =>
    by_cases hqueue : w.queue = []
    · rw [askImports_nil 0 t s hqueue, askImports_nil 0 t' s' hqueue]
      exact .found w hgo
    · rw [askImports_zero t s hqueue, askImports_zero t' s' hqueue]
      exact .pending hgo
  | succ fuel ih =>
    cases hqueue : w.queue with
    | nil =>
      rw [askImports_nil _ t s hqueue, askImports_nil _ t' s' hqueue]
      exact .found w hgo
    | cons name queue =>
      rw [Reflection.askImports, Reflection.askImports]
      simp only [hqueue]
      by_cases hin : w.closure.contains name = true
      · rw [if_pos hin, if_pos hin]
        exact ih hgo _
      · rw [if_neg hin, if_neg hin]
        have hanswered := h t s t' s' (.file name) (by simp) hgo
        revert hanswered
        generalize requestFiles server limit t s (.file name) = here
        generalize requestFiles server' limit t' s' (.file name) = there
        intro hanswered
        cases hanswered with
        | @forgiven t₁ s₁ e t₁' s₁' e' hforgives hforgives' hgo =>
          have hskip : (Schema.isStandard name && e.saysNotFound) = true := hforgives
          have hskip' : (Schema.isStandard name && e'.saysNotFound) = true := hforgives'
          simp only [hskip, hskip', if_true]
          exact ih hgo _
        | @fatal t₁ s₁ e t₁' s₁' e' hforgives hforgives' hstop =>
          have hends : (Schema.isStandard name && e.saysNotFound) = false := hforgives
          have hends' : (Schema.isStandard name && e'.saysNotFound) = false := hforgives'
          simp only [hends, hends', Bool.false_eq_true, if_false]
          exact .failed hstop
        | @files t₁ s₁ t₁' s₁' files hgo hnameless =>
          cases hstep : Walk.takeIn { w with queue } files with
          | error e =>
            obtain ⟨rfl, f, hf, hname⟩ := Walk.takeIn_error hstep
            simp only [hstep]
            exact .failed (hnameless f hf hname)
          | ok w' =>
            simp only [hstep]
            exact ih hgo w'

theorem Paired.map {α β : Type} (f : α → β) {x : Trace σ × Session × Option (Except Error α)}
    {y : Trace τ × Session × Option (Except Error α)} (h : Paired R S x y) :
    Paired R S (x.1, x.2.1, x.2.2.map (·.map f)) (y.1, y.2.1, y.2.2.map (·.map f)) := by
  cases h with
  | found a hgo => exact .found (f a) hgo
  | failed hstop => exact .failed hstop
  | pending hgo => exact .pending hgo

/-- What one query keeps in step stays in step for a whole run. -/
theorem InStep.resolve (h : InStep server server' limit R S) (fuel : Nat) (hgo : R t s t' s')
    (symbols : List String) :
    Paired R S (resolve server limit fuel t s symbols) (resolve server' limit fuel t' s' symbols) := by
  have hsymbols := h.askSymbols hgo Walk.start symbols
  rcases hrun : Reflection.askSymbols server limit t s Walk.start symbols with ⟨t₁, s₁, result⟩
  rcases hrun' : Reflection.askSymbols server' limit t' s' Walk.start symbols with ⟨t₁', s₁', result'⟩
  rw [hrun, hrun'] at hsymbols
  cases hsymbols with
  | failed hstop =>
    rw [(resolve_of_error hrun fuel).1, (resolve_of_error hrun' fuel).1]
    exact .failed hstop
  | found w hgo =>
    rw [(resolve_of_ok hrun fuel).1, (resolve_of_ok hrun' fuel).1]
    exact (h.askImports fuel hgo w).map _

end RpcGateway.Reflection
