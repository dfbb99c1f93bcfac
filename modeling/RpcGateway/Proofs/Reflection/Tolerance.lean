import RpcGateway.Proofs.Reflection.Requests
import RpcGateway.Proofs.Reflection.Script
/-!
# Missing files

What a discovery does about a file that the server lacks. It goes on without a file of the standard library,
and ends at any other. A server may say that it lacks a file in a response, by ending the stream, or by
refusing to open one; but the last is taken for the failure of the whole discovery, whichever file it is.
So after one missing file ended its stream, a second one is fatal at a server that refuses the next.
-/
namespace RpcGateway.Reflection

open Schema (File Closure)

/-- Whether a server says that it lacks what it was asked for: in a response, at the end of a stream, or
instead of opening one. -/
def Error.isLack : Error → Bool
  | .openFailed status => status.code == .notFound
  | e => e.saysNotFound

/-- Whether a server refused to open a stream. -/
def Error.isRefusal : Error → Bool
  | .openFailed _ => true
  | _ => false

private theorem Error.isLack_of_saysNotFound {e : Error} (h : e.saysNotFound = true) : e.isLack = true := by
  cases e with
  | openFailed status => cases h
  | _ => exact h

private theorem Error.saysNotFound_iff {e : Error} :
    e.saysNotFound = true ↔ e.isLack = true ∧ e.isRefusal = false := by
  cases e with
  | openFailed status => simp [saysNotFound, isRefusal]
  | _ => simp [saysNotFound, isLack, isRefusal]

/-- How a run deals with the files that a server says it lacks: it goes on after each of the standard
library and notes exactly these; any other error that comes of a file is its last exchange and its end. -/
structure IsTolerant (h : List Exchange) (result : Option (Except Error Closure)) : Prop where
  skips : ∀ before name e after, h = before ++ ⟨.file name, .error e⟩ :: after →
    Schema.isStandard name = true → e.isLack = true → after = [] → ∀ e', result ≠ some (.error e')
  notes : ∀ c, result = some (.ok c) → ∀ name, name ∈ c.missing ↔
    ∃ e, ⟨.file name, .error e⟩ ∈ h ∧ Schema.isStandard name = true ∧ e.isLack = true
  stops : ∀ before name e after, h = before ++ ⟨.file name, .error e⟩ :: after →
    (Schema.isStandard name && e.isLack) = false → after = [] ∧ result = some (.error e)

variable {σ : Type} {server : Server σ} {limit : Option Duration}

private theorem askImports_ne_error {fuel : Nat} {t : Trace σ} {s : Session} {w : Walk}
    (hnone : importExchanges server limit fuel t s w = []) (e : Error) :
    (askImports server limit fuel t s w).2.2 ≠ some (.error e) := by
  induction fuel generalizing t s w with
  | zero =>
    by_cases hqueue : w.queue = []
    · simp [askImports_nil 0 t s hqueue]
    · simp [askImports_zero t s hqueue]
  | succ fuel ih =>
    cases hqueue : w.queue with
    | nil => simp [askImports_nil _ t s hqueue]
    | cons name queue =>
      cases turn server limit t s hqueue with
      | skip _ hrun hasked =>
        rw [hasked] at hnone
        rw [hrun]
        exact ih hnone
      | found _ _ _ _ hasked => simp [hasked] at hnone
      | lacking _ _ _ _ hasked => simp [hasked] at hnone
      | failed _ _ _ hasked => simp [hasked] at hnone

/-- What comes of an error about a file: the walk goes on, or this was the last query and the result. -/
inductive Handled (name : String) (e : Error) (after : List Exchange)
    (result : Option (Except Error Closure)) : Prop
  | skipped (hstandard : Schema.isStandard name = true) (hnot : e.saysNotFound = true)
      (hgoes : after = [] → ∀ e', result ≠ some (.error e'))
  | fatal (hother : (Schema.isStandard name && e.saysNotFound) = false) (hlast : after = [])
      (hresult : result = some (.error e))

private theorem map_closure_eq_error {result : Option (Except Error Walk)} {e : Error} :
    result.map (·.map (·.closure)) = some (.error e) ↔ result = some (.error e) := by
  rcases result with _ | _ | _ <;> simp [Except.map]

private theorem importExchanges_handled {fuel : Nat} {t : Trace σ} {s : Session} {w : Walk}
    {before after : List Exchange} {name : String} {e : Error}
    (heq : importExchanges server limit fuel t s w = before ++ ⟨.file name, .error e⟩ :: after) :
    Handled name e after
      ((askImports server limit fuel t s w).2.2.map (·.map (·.closure))) := by
  induction fuel generalizing t s w before with
  | zero => simp [importExchanges] at heq
  | succ fuel ih =>
    cases hqueue : w.queue with
    | nil => simp [importExchanges_nil _ t s hqueue] at heq
    | cons first queue =>
      cases turn server limit t s hqueue with
      | skip _ hrun hasked =>
        rw [hasked] at heq
        rw [hrun]
        exact ih heq
      | found _ _ _ hrun hasked =>
        rw [hasked] at heq
        rw [hrun]
        cases before with
        | nil => simp at heq
        | cons _ rest => exact ih (List.cons.inj heq).2
      | lacking _ _ hnot hrun hasked hstandard =>
        rw [hasked] at heq
        rw [hrun]
        cases before with
        | nil =>
          obtain ⟨hhead, hrest⟩ := List.cons.inj heq
          cases hhead
          refine .skipped hstandard hnot fun hnone e' hfails => ?_
          exact askImports_ne_error (hrest.trans hnone) e' (map_closure_eq_error.mp hfails)
        | cons _ rest => exact ih (List.cons.inj heq).2
      | failed _ _ hrun hasked hcause =>
        rw [hasked] at heq
        rw [hrun]
        cases before with
        | cons _ rest => simp at heq
        | nil =>
          obtain ⟨hhead, hrest⟩ := List.cons.inj heq
          cases hhead
          rcases hcause with ⟨files, hok, -⟩ | ⟨herror, hother⟩
          · cases hok
          · cases herror
            exact .fatal hother hrest.symm rfl

private theorem append_file_inj {first rest before after : List Exchange} {name : String}
    {answer : Except Error (List File)} (hfirst : askedNames first = [])
    (heq : first ++ rest = before ++ ⟨.file name, answer⟩ :: after) :
    ∃ between, rest = between ++ ⟨.file name, answer⟩ :: after := by
  rcases List.append_eq_append_iff.mp heq with ⟨between, -, hrest⟩ | ⟨between, hsplit, hrest⟩
  · exact ⟨between, hrest⟩
  · cases between with
    | nil => exact ⟨[], hrest.symm⟩
    | cons x tail =>
      have hx : (⟨.file name, answer⟩ : Exchange) = x := (List.cons.inj hrest).1
      have hname : name ∈ askedNames first :=
        mem_askedNames.mpr ⟨answer, by rw [hsplit, hx]; simp⟩
      rw [hfirst] at hname
      cases hname

private theorem exchanges_handled {fuel : Nat} {t : Trace σ} {s : Session} {symbols : List String}
    {before after : List Exchange} {name : String} {e : Error}
    (heq : exchanges server limit fuel t s symbols = before ++ ⟨.file name, .error e⟩ :: after) :
    Handled name e after (resolve server limit fuel t s symbols).2.2 := by
  have hprefix : (symbolExchanges server limit t s Walk.start symbols).map Exchange.query <+: _ :=
    symbolExchanges_prefix t s Walk.start symbols
  have hnone := askedNames_eq_nil hprefix
  rcases hrun : askSymbols server limit t s Walk.start symbols with ⟨t₁, s₁, result⟩
  cases result with
  | error _ =>
    rw [(resolve_of_error hrun fuel).2] at heq
    have hname : name ∈ askedNames (symbolExchanges server limit t s Walk.start symbols) :=
      mem_askedNames.mpr ⟨.error e, by rw [heq]; simp⟩
    rw [hnone] at hname
    cases hname
  | ok w =>
    obtain ⟨hresolve, hexchanges⟩ := resolve_of_ok hrun fuel
    rw [hexchanges] at heq
    rw [hresolve]
    obtain ⟨between, himports⟩ := append_file_inj hnone heq
    exact importExchanges_handled himports

/-- What comes of a query for files at a server that has them, or lacks them and says so. -/
inductive Outcome.IsForthcoming : Outcome → Prop
  | files (files : List Bytes) : IsForthcoming (.response (.files files))
  | inBand (message : String) : IsForthcoming (.response (.error StatusCode.notFound.number message))
  | failed (message : String) : IsForthcoming (.failed ⟨.notFound, message⟩)

/-- A server that fails no query for files but by saying that it lacks them, in one of three ways. -/
structure Server.IsForthcoming (server : Server σ) : Prop where
  opens : ∀ state query, (server.opening state query).2 = .served ∨
    ∃ message, (server.opening state query).2 = .refused ⟨.notFound, message⟩
  reads : ∀ state number, server.reads state number = true
  replies : ∀ state number query, query ≠ .services →
    (server.reply state number query).2.outcome.IsForthcoming

/-- What a query brings at such a server: files, word that it lacks what was asked for, or nothing in time. -/
inductive Expected (limit : Option Duration) : Except Error Response → Prop
  | files (files : List Bytes) : Expected limit (.ok (.files files))
  | lack {e : Error} (hlack : e.isLack = true) : Expected limit (.error e)
  | late {d : Duration} (hlimit : d ∈ limit) : Expected limit (.error (.timeout d))

private theorem receive_expected {outcome : Outcome} (h : outcome.IsForthcoming) :
    Expected limit (receive outcome) := by
  cases h with
  | files files => exact .files files
  | inBand message => exact .lack rfl
  | failed message => exact .lack rfl

private theorem exchange_expected (hserver : server.IsForthcoming) (t : Trace σ) {stream : Stream}
    (hgoes : ¬stream.ended = true) {query : Query} (hquery : query ≠ .services) :
    Expected limit (exchange server limit t stream query).2 := by
  have hexchanged := exchange_exchanged server limit t stream query
  generalize (exchange server limit t stream query).2 = result at hexchanged ⊢
  cases hexchanged with
  | ended hended => exact absurd hended hgoes
  | late hlimit => exact .late hlimit
  | reply state => exact receive_expected (hserver.replies state stream.number query hquery)

private theorem request_expected (hserver : server.IsForthcoming) {t t' : Trace σ} {s s' : Session}
    (hs : s.CanAsk) {query : Query} (hquery : query ≠ .services) {result : Except Error Response}
    (h : request server limit t s query = (t', s', result)) : Expected limit result := by
  have hcases := dispatch_dispatched server t hs query
  have hopens := hserver.opens t.server query
  rw [request] at h
  rcases hdispatch : dispatch server t s query with ⟨t₁, dispatched⟩
  rw [hdispatch] at h hcases
  cases hcases with
  | refused hrefused =>
    cases h
    simp only [hrefused, Opening.refused.injEq, reduceCtorEq, false_or] at hopens
    obtain ⟨message, rfl⟩ := hopens
    exact .lack rfl
  | unread hunread =>
    rw [hserver.reads] at hunread
    cases hunread
  | onStream hstream hended =>
    simp only [hstream] at h
    cases h
    refine exchange_expected hserver _ (fun hend => ?_) hquery
    simp [hended hend] at hopens

/-- The errors that come of a query at such a server. -/
def Error.IsExpected (limit : Option Duration) (e : Error) : Prop :=
  e.isLack = true ∨ (∃ d ∈ limit, e = .timeout d) ∨ ∃ reason, e = .decode reason

private theorem requestFiles_isExpected (hserver : server.IsForthcoming) {t t' : Trace σ} {s s' : Session}
    (hs : s.CanAsk) {query : Query} (hquery : query ≠ .services) {e : Error}
    (h : requestFiles server limit t s query = (t', s', .error e)) : e.IsExpected limit := by
  rw [requestFiles] at h
  rcases hrequest : request server limit t s query with ⟨t₁, s₁, result⟩
  have hresult := request_expected hserver hs hquery hrequest
  rw [hrequest] at h
  have hbind : result.bind readFiles = .error e := (Prod.mk.inj (Prod.mk.inj h).2).2
  cases hresult with
  | files files => exact Or.inr (Or.inr (readFiles_error hbind))
  | lack hlack =>
    cases hbind
    exact Or.inl hlack
  | late hlimit =>
    cases hbind
    exact Or.inr (Or.inl ⟨_, hlimit, rfl⟩)

private theorem isTolerant_iff (fuel : Nat) (t : Trace σ) (s : Session) (symbols : List String) :
    IsTolerant (exchanges server limit fuel t s symbols)
        (resolve server limit fuel t s symbols).2.2 ↔
      ∀ name e, ⟨.file name, .error e⟩ ∈ exchanges server limit fuel t s symbols →
        Schema.isStandard name = true → e.isLack = true → e.isRefusal = false := by
  constructor
  · intro htolerant name e hmem hstandard hlack
    obtain ⟨before, after, heq⟩ := List.append_of_mem hmem
    cases exchanges_handled heq with
    | skipped _ hnot _ => exact (Error.saysNotFound_iff.mp hnot).2
    | fatal _ hlast hresult =>
      exact (htolerant.skips before name e after heq hstandard hlack hlast e hresult).elim
  · intro hnever
    have hskipped : ∀ before name e after, exchanges server limit fuel t s symbols =
        before ++ ⟨.file name, .error e⟩ :: after → Schema.isStandard name = true → e.isLack = true →
        e.saysNotFound = true := by
      intro before name e after heq hstandard hlack
      have hmem : ⟨.file name, .error e⟩ ∈ exchanges server limit fuel t s symbols := by
        rw [heq]
        simp
      exact Error.saysNotFound_iff.mpr ⟨hlack, hnever name e hmem hstandard hlack⟩
    constructor
    · intro before name e after heq hstandard hlack hlast
      have hnot := hskipped before name e after heq hstandard hlack
      cases exchanges_handled heq with
      | skipped _ _ hgoes => exact hgoes hlast
      | fatal hother _ _ => simp [hstandard, hnot] at hother
    · intro c hc name
      obtain ⟨w, rfl, -, hw⟩ := resolve_follows hc
      rw [hw.missing]
      constructor
      · intro hmissing
        obtain ⟨e, hmem⟩ := hmissing
        obtain ⟨before, after, heq⟩ := List.append_of_mem hmem
        cases exchanges_handled heq with
        | skipped hstandard hnot _ =>
          exact ⟨e, hmem, hstandard, Error.isLack_of_saysNotFound hnot⟩
        | fatal _ _ hresult =>
          rw [hresult] at hc
          cases hc
      · intro hlacks
        obtain ⟨e, hmem, -, -⟩ := hlacks
        exact ⟨e, hmem⟩
    · intro before name e after heq hother
      cases exchanges_handled heq with
      | skipped hstandard hnot _ =>
        simp [hstandard, Error.isLack_of_saysNotFound hnot] at hother
      | fatal _ hlast hresult => exact ⟨hlast, hresult⟩

/-- How a stream is opened whose first query comes to this: a stream that would fail is refused. -/
def Outcome.opening : Outcome → Opening
  | .failed status => .refused status
  | .response _ => .served
  | .finished => .served

theorem Outcome.IsForthcoming.opening {outcome : Outcome} (h : outcome.IsForthcoming) :
    outcome.opening = .served ∨ ∃ message, outcome.opening = .refused ⟨.notFound, message⟩ := by
  cases h with
  | files files => exact Or.inl rfl
  | inBand message => exact Or.inl rfl
  | failed message => exact Or.inr ⟨message, rfl⟩

end RpcGateway.Reflection

namespace RpcGateway.Sample.Script

open Reflection

/-- The server of a script, but a stream is refused if its first query would fail it. -/
def refusing (script : Script) : Server Unit :=
  { script.server with opening := fun _ query => ((), (script.outcome query).opening) }

private theorem lacking_isForthcoming (script : Script) (message : String) :
    (script.lacking message).IsForthcoming := by
  rw [lacking]
  split
  · exact .failed message
  · exact .inBand message

private theorem fileOutcome_isForthcoming (script : Script) (name : String) :
    (script.fileOutcome name).IsForthcoming := by
  rw [fileOutcome]
  split
  · exact .files _
  · exact script.lacking_isForthcoming _

private theorem outcome_isForthcoming (script : Script) {query : Query} (hquery : query ≠ .services) :
    (script.outcome query).IsForthcoming := by
  cases query with
  | services => exact absurd rfl hquery
  | file name => exact script.fileOutcome_isForthcoming name
  | symbol name =>
    rw [outcome]
    split
    · exact script.fileOutcome_isForthcoming _
    · exact script.lacking_isForthcoming _

private theorem refusing_isForthcoming (script : Script) : script.refusing.IsForthcoming where
  opens _ query := by
    show (script.outcome query).opening = .served ∨
      ∃ message, (script.outcome query).opening = .refused ⟨.notFound, message⟩
    by_cases hquery : query = .services
    · rw [hquery]
      exact Or.inl rfl
    · exact (script.outcome_isForthcoming hquery).opening
  reads _ _ := rfl
  replies _ _ _ hquery := script.outcome_isForthcoming hquery

end RpcGateway.Sample.Script

namespace RpcGateway.Reflection

variable {σ : Type}

/-- A run is tolerant exactly if no stream is refused for a file of the standard library. And a server that
fails no query but by saying that it lacks something is asked in such a way that no query fails otherwise:
a session that was given up over a missing file is opened again. -/
theorem resolve_isTolerant_iff (server : Server σ) (limit : Option Duration) (fuel : Nat) (t : Trace σ)
    (s : Session) (symbols : List String) :
    (IsTolerant (exchanges server limit fuel t s symbols)
        (resolve server limit fuel t s symbols).2.2 ↔
      ∀ name e, ⟨.file name, .error e⟩ ∈ exchanges server limit fuel t s symbols →
        Schema.isStandard name = true → e.isLack = true → e.isRefusal = false) ∧
    (server.IsForthcoming → s.CanAsk → ∀ x ∈ exchanges server limit fuel t s symbols,
      ∀ e, x.answer = .error e → e.IsExpected limit) := by
  refine ⟨isTolerant_iff fuel t s symbols, ?_⟩
  intro hserver hs
  have hevery : EveryAnswer server limit fun answer => ∀ e, answer = .error e → e.IsExpected limit := by
    intro t s query hs hquery e he
    rcases hreply : requestFiles server limit t s query with ⟨t₁, s₁, answer⟩
    rw [hreply] at he
    cases he
    exact requestFiles_isExpected hserver hs hquery hreply
  exact hevery.run fuel t hs symbols

/-- A service whose file imports two files of the standard library, which the server does not have. -/
def lackingTwo : Sample.Script :=
  ⟨[("s.S", "a.proto")], [bareFile "a.proto" ["google/protobuf/x.proto", "google/protobuf/y.proto"]],
    true⟩

theorem resolve_isTolerant_iff_lackingTwo :
    lackingTwo.refusing.IsForthcoming ∧ Session.new.CanAsk ∧
      ∀ x ∈ exchanges lackingTwo.refusing none 2 (.start ()) .new ["s.S"],
        ∀ e, x.answer = .error e → e.IsExpected none :=
  ⟨lackingTwo.refusing_isForthcoming, Session.canAsk_new,
    (resolve_isTolerant_iff _ none 2 (.start ()) .new ["s.S"]).2 lackingTwo.refusing_isForthcoming
      Session.canAsk_new⟩

private theorem resolve_lackingTwo :
    (resolve lackingTwo.refusing none 2 (.start ()) .new ["s.S"]).2.2 =
        some (.error (.openFailed ⟨.notFound, "file not found: google/protobuf/y.proto"⟩)) ∧
      ⟨.file "google/protobuf/y.proto",
          .error (.openFailed ⟨.notFound, "file not found: google/protobuf/y.proto"⟩)⟩ ∈
        exchanges lackingTwo.refusing none 2 (.start ()) .new ["s.S"] :=
  ⟨by decide +kernel, by decide +kernel⟩

/-- The server says of two files that it lacks them, and the run is not tolerant. -/
theorem not_isTolerant_lackingTwo :
    lackingTwo.refusing.IsForthcoming ∧
      ¬IsTolerant (exchanges lackingTwo.refusing none 2 (.start ()) .new ["s.S"])
        (resolve lackingTwo.refusing none 2 (.start ()) .new ["s.S"]).2.2 := by
  refine ⟨lackingTwo.refusing_isForthcoming, ?_⟩
  rw [isTolerant_iff]
  intro hnever
  have hstandard : Schema.isStandard "google/protobuf/y.proto" = true := by decide +kernel
  have hopened := hnever _ _ resolve_lackingTwo.2 hstandard rfl
  cases hopened

end RpcGateway.Reflection
