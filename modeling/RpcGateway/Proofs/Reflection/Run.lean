import RpcGateway.Proofs.Reflection.Exchange
import RpcGateway.Proofs.Reflection.Sessions
/-!
# Induction over a run

A discovery makes four kinds of steps: it takes in the files that came of a symbol, drops a name from its
queue whose file is there, takes in the files that came of a name, or notes that a name is missing. All
that a turn of its loop can do is said once, as `Turn`. What each step keeps, between the exchanges so far
and the walk, is kept by a whole run; and what every query keeps of the exchanges before it holds of all
exchanges of a run, however it ends. What comes of every query of a session that can ask comes of all
queries of a run, for a session that was closed over a missing file is reopened before the next.
-/
namespace RpcGateway.Reflection

open Schema (File Closure)

variable {σ : Type} {server : Server σ} {limit : Option Duration}

/-- What a walk does about the name that comes first in its queue: it goes on without a query, or after a
query, or the query is the last one. -/
inductive Turn (server : Server σ) (limit : Option Duration) (t : Trace σ) (s : Session) (w : Walk)
    (name : String) (queue : List String) : Prop
  | skip (hin : name ∈ w.closure.names)
      (hrun : ∀ fuel, askImports server limit (fuel + 1) t s w =
        askImports server limit fuel t s { w with queue })
      (hasked : ∀ fuel, importExchanges server limit (fuel + 1) t s w =
        importExchanges server limit fuel t s { w with queue })
  | found {t' : Trace σ} {s' : Session} {w' : Walk} {files : List File}
      (hout : name ∉ w.closure.names)
      (hreply : requestFiles server limit t s (.file name) = (t', s', .ok files))
      (hstep : Walk.takeIn { w with queue } files = .ok w')
      (hrun : ∀ fuel, askImports server limit (fuel + 1) t s w = askImports server limit fuel t' s' w')
      (hasked : ∀ fuel, importExchanges server limit (fuel + 1) t s w =
        ⟨.file name, .ok files⟩ :: importExchanges server limit fuel t' s' w')
  | lacking {t' : Trace σ} {s' : Session} {e : Error} (hout : name ∉ w.closure.names)
      (hreply : requestFiles server limit t s (.file name) = (t', s', .error e))
      (hnot : e.saysNotFound = true)
      (hrun : ∀ fuel, askImports server limit (fuel + 1) t s w =
        askImports server limit fuel t' s'.reopen
          { w with queue, closure := w.closure.noteMissing name })
      (hasked : ∀ fuel, importExchanges server limit (fuel + 1) t s w =
        ⟨.file name, .error e⟩ :: importExchanges server limit fuel t' s'.reopen
          { w with queue, closure := w.closure.noteMissing name })
      (hstandard : Schema.isStandard name = true)
  | failed {t' : Trace σ} {s' : Session} {answer : Except Error (List File)} {e : Error}
      (hout : name ∉ w.closure.names)
      (hreply : requestFiles server limit t s (.file name) = (t', s', answer))
      (hrun : ∀ fuel, askImports server limit (fuel + 1) t s w = (t', s', some (.error e)))
      (hasked : ∀ fuel, importExchanges server limit (fuel + 1) t s w = [⟨.file name, answer⟩])
      (hcause : (∃ files, answer = .ok files ∧ Walk.takeIn { w with queue } files = .error e) ∨
        answer = .error e ∧ (Schema.isStandard name && e.saysNotFound) = false)

theorem turn (server : Server σ) (limit : Option Duration) (t : Trace σ) (s : Session) {w : Walk}
    {name : String} {queue : List String} (hqueue : w.queue = name :: queue) :
    Turn server limit t s w name queue := by
  by_cases hin : w.closure.contains name = true
  · apply Turn.skip (Closure.contains_iff.mp hin)
    · simp [askImports, hqueue, hin]
    · simp [importExchanges, hqueue, hin]
  · have hout : name ∉ w.closure.names := fun hn => hin (Closure.contains_iff.mpr hn)
    rcases hreply : requestFiles server limit t s (.file name) with ⟨t', s', answer⟩
    cases answer with
    | ok files =>
      cases hstep : Walk.takeIn { w with queue } files with
      | error e =>
        apply Turn.failed (e := e) hout hreply
        · simp [askImports, hqueue, hin, hreply, hstep]
        · simp [importExchanges, hqueue, hin, hreply, hstep]
        · exact Or.inl ⟨files, rfl, hstep⟩
      | ok w' =>
        apply Turn.found hout hreply hstep
        · simp [askImports, hqueue, hin, hreply, hstep]
        · simp [importExchanges, hqueue, hin, hreply, hstep]
    | error e =>
      by_cases hskip : (Schema.isStandard name && e.saysNotFound) = true
      · apply Turn.lacking hout hreply (Bool.and_eq_true_iff.mp hskip).2
        · simp [askImports, hqueue, hin, hreply, hskip]
        · simp [importExchanges, hqueue, hin, hreply, hskip]
        · exact (Bool.and_eq_true_iff.mp hskip).1
      · apply Turn.failed (e := e) hout hreply
        · simp [askImports, hqueue, hin, hreply, hskip]
        · simp [importExchanges, hqueue, hin, hreply, hskip]
        · exact Or.inr ⟨rfl, Bool.eq_false_iff.mpr hskip⟩

theorem askImports_nil (fuel : Nat) (t : Trace σ) (s : Session) {w : Walk} (hqueue : w.queue = []) :
    askImports server limit fuel t s w = (t, s, some (.ok w)) := by
  cases fuel <;> simp [askImports, hqueue]

theorem importExchanges_nil (fuel : Nat) (t : Trace σ) (s : Session) {w : Walk}
    (hqueue : w.queue = []) : importExchanges server limit fuel t s w = [] := by
  cases fuel <;> simp [importExchanges, hqueue]

theorem askImports_zero (t : Trace σ) (s : Session) {w : Walk} (hqueue : w.queue ≠ []) :
    askImports server limit 0 t s w = (t, s, none) := by
  simp [askImports, hqueue]

theorem resolve_of_error {t t' : Trace σ} {s s' : Session} {symbols : List String} {e : Error}
    (hrun : askSymbols server limit t s Walk.start symbols = (t', s', .error e)) (fuel : Nat) :
    resolve server limit fuel t s symbols = (t', s', some (.error e)) ∧
      exchanges server limit fuel t s symbols =
        symbolExchanges server limit t s Walk.start symbols := by
  simp [resolve, exchanges, hrun]

theorem resolve_of_ok {t t' : Trace σ} {s s' : Session} {symbols : List String} {w : Walk}
    (hrun : askSymbols server limit t s Walk.start symbols = (t', s', .ok w)) (fuel : Nat) :
    resolve server limit fuel t s symbols =
        ((askImports server limit fuel t' s' w).1, (askImports server limit fuel t' s' w).2.1,
          (askImports server limit fuel t' s' w).2.2.map (·.map (·.closure))) ∧
      exchanges server limit fuel t s symbols =
        symbolExchanges server limit t s Walk.start symbols ++
          importExchanges server limit fuel t' s' w := by
  simp [resolve, exchanges, hrun]

/-- Every step of a discovery keeps a property of the exchanges so far and the walk. -/
structure Kept (P : List Exchange → Walk → Prop) : Prop where
  symbol : ∀ {h w w' symbol files}, P h w → w.takeIn files = .ok w' →
    P (h ++ [⟨.symbol symbol, .ok files⟩]) w'
  skip : ∀ {h} {w : Walk} {name queue}, P h w → w.queue = name :: queue →
    name ∈ w.closure.names → P h { w with queue }
  found : ∀ {h} {w w' : Walk} {name queue files}, P h w → w.queue = name :: queue →
    Walk.takeIn { w with queue } files = .ok w' → P (h ++ [⟨.file name, .ok files⟩]) w'
  lacking : ∀ {h} {w : Walk} {name queue}, P h w → w.queue = name :: queue →
    ∀ e, P (h ++ [⟨.file name, .error e⟩]) { w with queue, closure := w.closure.noteMissing name }

/-- Every query of a discovery keeps a property of the exchanges so far, whatever comes of it. -/
structure KeptByAsking (P : List Exchange → Walk → Prop) (Q : List Exchange → Prop) : Prop where
  symbol : ∀ {h}, Q h → ∀ symbol answer, Q (h ++ [⟨.symbol symbol, answer⟩])
  file : ∀ {h} {w : Walk} {name queue}, P h w → w.queue = name :: queue →
    name ∉ w.closure.names → Q h → ∀ answer, Q (h ++ [⟨.file name, answer⟩])

variable {P : List Exchange → Walk → Prop} {Q : List Exchange → Prop}

theorem keptByAsking_true : KeptByAsking P fun _ => True :=
  ⟨fun _ _ _ => trivial, fun _ _ _ _ _ => trivial⟩

theorem Kept.runSymbols (hP : Kept P) (hQ : KeptByAsking P Q) {h : List Exchange} (t : Trace σ)
    (s : Session) {w : Walk} (symbols : List String) (hw : P h w) (hh : Q h) :
    Q (h ++ symbolExchanges server limit t s w symbols) ∧
      ∀ t' s' w', askSymbols server limit t s w symbols = (t', s', .ok w') →
        P (h ++ symbolExchanges server limit t s w symbols) w' := by
  induction symbols generalizing h t s w with
  | nil =>
    rw [symbolExchanges, List.append_nil]
    refine ⟨hh, ?_⟩
    intro t' s' w' hrun
    cases hrun
    exact hw
  | cons symbol rest ih =>
    rw [askSymbols, symbolExchanges]
    rcases hreply : requestFiles server limit t s (.symbol symbol) with ⟨t₁, s₁, answer⟩
    have hasked := hQ.symbol hh symbol answer
    cases answer with
    | error e => simpa using hasked
    | ok files =>
      cases hstep : w.takeIn files with
      | error e => simpa [hstep] using hasked
      | ok w₁ =>
        simp only [hstep]
        simpa using ih t₁ s₁ (hP.symbol hw hstep) hasked

private theorem Kept.runImports (hP : Kept P) (hQ : KeptByAsking P Q) (fuel : Nat) {h : List Exchange}
    (t : Trace σ) (s : Session) {w : Walk} (hw : P h w) (hh : Q h) :
    Q (h ++ importExchanges server limit fuel t s w) ∧
      ∀ t' s' w', askImports server limit fuel t s w = (t', s', some (.ok w')) →
        P (h ++ importExchanges server limit fuel t s w) w' ∧ w'.queue = [] := by
  induction fuel generalizing h t s w with
  | zero =>
    rw [importExchanges, List.append_nil]
    refine ⟨hh, ?_⟩
    intro t' s' w' hrun
    by_cases hqueue : w.queue = []
    · rw [askImports_nil 0 t s hqueue] at hrun
      cases hrun
      exact ⟨hw, hqueue⟩
    · rw [askImports_zero t s hqueue] at hrun
      cases hrun
  | succ fuel ih =>
    cases hqueue : w.queue with
    | nil =>
      rw [importExchanges_nil _ t s hqueue, askImports_nil _ t s hqueue, List.append_nil]
      refine ⟨hh, ?_⟩
      rintro t' s' w' ⟨⟩
      exact ⟨hw, hqueue⟩
    | cons name queue =>
      cases turn server limit t s hqueue with
      | skip hin hrun hasked =>
        rw [hrun, hasked]
        exact ih t s (hP.skip hw hqueue hin) hh
      | found hout hreply hstep hrun hasked =>
        rw [hrun, hasked, List.append_cons]
        exact ih _ _ (hP.found hw hqueue hstep) (hQ.file hw hqueue hout hh _)
      | lacking hout hreply hnot hrun hasked =>
        rw [hrun, hasked, List.append_cons]
        exact ih _ _ (hP.lacking hw hqueue _) (hQ.file hw hqueue hout hh _)
      | failed hout hreply hrun hasked =>
        rw [hrun, hasked]
        refine ⟨hQ.file hw hqueue hout hh _, ?_⟩
        rintro t' s' w' ⟨⟩

theorem Kept.run (hP : Kept P) (hQ : KeptByAsking P Q) (fuel : Nat) (t : Trace σ) (s : Session)
    (symbols : List String) (hstart : P [] Walk.start) (hnone : Q []) :
    Q (exchanges server limit fuel t s symbols) ∧
      ∀ c, (resolve server limit fuel t s symbols).2.2 = some (.ok c) →
        ∃ w : Walk, w.closure = c ∧ w.queue = [] ∧
          P (exchanges server limit fuel t s symbols) w := by
  obtain ⟨hasked, hkept⟩ : Q ([] ++ symbolExchanges server limit t s Walk.start symbols) ∧ _ :=
    hP.runSymbols hQ t s symbols hstart hnone
  rw [List.nil_append] at hasked hkept
  rcases hsymbols : askSymbols server limit t s Walk.start symbols with ⟨t₁, s₁, result⟩
  cases result with
  | error e =>
    obtain ⟨hresolve, hexchanges⟩ := resolve_of_error hsymbols fuel
    rw [hresolve, hexchanges]
    refine ⟨hasked, ?_⟩
    rintro c ⟨⟩
  | ok w =>
    obtain ⟨hresolve, hexchanges⟩ := resolve_of_ok hsymbols fuel
    rw [hresolve, hexchanges]
    obtain ⟨hasked', hkept'⟩ := hP.runImports hQ fuel t₁ s₁ (hkept t₁ s₁ w hsymbols) hasked
    refine ⟨hasked', ?_⟩
    intro c hrun
    rcases himports : askImports server limit fuel t₁ s₁ w with ⟨t₂, s₂, result⟩
    rw [himports] at hrun
    match result, hrun with
    | some (.ok w'), hrun =>
      cases hrun
      obtain ⟨hw', hqueue⟩ := hkept' t₂ s₂ w' himports
      exact ⟨w', rfl, hqueue, hw'⟩

/-- What comes of every query for files of a session that can ask. -/
def EveryAnswer (server : Server σ) (limit : Option Duration) (A : Except Error (List File) → Prop) :
    Prop :=
  ∀ t s query, s.CanAsk → query ≠ .services → A (requestFiles server limit t s query).2.2

variable {A : Except Error (List File) → Prop}

theorem EveryAnswer.symbols (hA : EveryAnswer server limit A) (t : Trace σ) {s : Session}
    (hs : s.CanAsk) (w : Walk) (symbols : List String) :
    (∀ x ∈ symbolExchanges server limit t s w symbols, A x.answer) ∧
      ∀ t' s' w', askSymbols server limit t s w symbols = (t', s', .ok w') → s'.CanAsk := by
  induction symbols generalizing t s w with
  | nil =>
    refine ⟨by simp [symbolExchanges], ?_⟩
    intro t' s' w' hrun
    cases hrun
    exact hs
  | cons symbol rest ih =>
    have hanswer := hA t s (.symbol symbol) hs (by simp)
    rw [askSymbols, symbolExchanges]
    rcases hreply : requestFiles server limit t s (.symbol symbol) with ⟨t₁, s₁, answer⟩
    rw [hreply] at hanswer
    cases answer with
    | error e => simpa using hanswer
    | ok files =>
      have hs₁ : s₁.CanAsk := (requestFiles_canAsk hs hreply).2 files rfl
      cases hstep : w.takeIn files with
      | error e => simpa [hstep] using hanswer
      | ok w₁ =>
        have hrest := ih t₁ hs₁ w₁
        simp only [hstep]
        refine ⟨?_, hrest.2⟩
        intro x hx
        rcases List.mem_cons.mp hx with rfl | hx
        · exact hanswer
        · exact hrest.1 x hx

/-- A session is reopened after a file that is skipped, so that it can ask for the next. -/
theorem EveryAnswer.imports (hA : EveryAnswer server limit A) (fuel : Nat) (t : Trace σ) {s : Session}
    (hs : s.CanAsk) (w : Walk) :
    ∀ x ∈ importExchanges server limit fuel t s w, A x.answer := by
  induction fuel generalizing t s w with
  | zero => simp [importExchanges]
  | succ fuel ih =>
    cases hqueue : w.queue with
    | nil => simp [importExchanges_nil _ t s hqueue]
    | cons name queue =>
      have hanswer := hA t s (.file name) hs (by simp)
      cases turn server limit t s hqueue with
      | skip _ _ hasked =>
        rw [hasked]
        exact ih t hs _
      | found _ hreply _ _ hasked =>
        rw [hreply] at hanswer
        rw [hasked, List.forall_mem_cons]
        exact ⟨hanswer, ih _ ((requestFiles_canAsk hs hreply).2 _ rfl) _⟩
      | lacking _ hreply _ _ hasked _ =>
        rw [hreply] at hanswer
        rw [hasked, List.forall_mem_cons]
        exact ⟨hanswer, ih _ (requestFiles_canAsk hs hreply).1 _⟩
      | failed _ hreply _ hasked _ =>
        rw [hreply] at hanswer
        rw [hasked, List.forall_mem_singleton]
        exact hanswer

theorem EveryAnswer.run (hA : EveryAnswer server limit A) (fuel : Nat) (t : Trace σ) {s : Session}
    (hs : s.CanAsk) (symbols : List String) :
    ∀ x ∈ exchanges server limit fuel t s symbols, A x.answer := by
  obtain ⟨hsymbols, hok⟩ := hA.symbols t hs Walk.start symbols
  rcases hrun : askSymbols server limit t s Walk.start symbols with ⟨t₁, s₁, result⟩
  cases result with
  | error e =>
    rw [(resolve_of_error hrun fuel).2]
    exact hsymbols
  | ok w =>
    rw [(resolve_of_ok hrun fuel).2, List.forall_mem_append]
    exact ⟨hsymbols, hA.imports fuel t₁ (hok t₁ s₁ w hrun) w⟩

end RpcGateway.Reflection
