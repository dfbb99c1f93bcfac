import Mathlib.Data.Finset.Card
import RpcGateway.Proofs.Reflection.Coverage
/-!
# Requests of a discovery

In which order a discovery asks, and how often. Symbols come first, one query for each; then a name is only
asked for that was never asked for, that a file received before imports, and whose file was not received.
So the names that a server speaks of bound the number of queries, and a walk ends even if files import each
other or themselves.
-/
namespace RpcGateway.Reflection

open Schema (File Closure)

/-- What a discovery holds after some exchanges: of each name the first file that was received. -/
def received (h : List Exchange) : Closure :=
  Closure.ofFiles (h.flatMap Exchange.files)

private theorem received_concat (h : List Exchange) (e : Exchange) :
    received (h ++ [e]) = (received h).insertAll e.files := by
  rw [received, received, Closure.ofFiles, Closure.ofFiles, List.flatMap_append,
    Closure.insertAll_append, List.flatMap_singleton]

private theorem mem_of_mem_received {h : List Exchange} {f : File} (hf : f ∈ (received h).files) :
    f ∈ h.flatMap Exchange.files := by
  rcases Closure.mem_of_mem_files_insertAll hf with hnone | hin
  · cases hnone
  · exact hin

private theorem Walk.closure_takeInFile {w w' : Walk} {f : File} (h : w.takeInFile f = .ok w') :
    w'.closure = (w.closure.insert f).1 := by
  rcases Walk.takeInFile_cases h with ⟨hin, rfl⟩ | ⟨-, rfl⟩
  · rw [Closure.insert_known hin]
  · rfl

private theorem Walk.closure_takeIn {w w' : Walk} {files : List File} (h : w.takeIn files = .ok w') :
    w'.closure = w.closure.insertAll files := by
  induction files generalizing w with
  | nil =>
    cases h
    rfl
  | cons f rest ih =>
    rw [Walk.takeIn, List.foldlM_cons] at h
    cases hfirst : w.takeInFile f with
    | error e =>
      rw [hfirst] at h
      cases h
    | ok middle =>
      rw [hfirst] at h
      rw [ih h, closure_takeInFile hfirst, Closure.insertAll_cons]

/-- Where a walk stands after some exchanges, and that it holds what was received. -/
structure Walk.Holds (h : List Exchange) (w : Walk) : Prop where
  follows : w.Follows h
  files : w.closure.files = (received h).files

private theorem Walk.files_takeIn {h : List Exchange} {w w' : Walk}
    (hw : w.closure.files = (received h).files) {files : List File}
    (hstep : w.takeIn files = .ok w') (query : Query) :
    w'.closure.files = (received (h ++ [⟨query, .ok files⟩])).files := by
  rw [closure_takeIn hstep, received_concat]
  exact Closure.files_insertAll_congr hw files

private theorem Walk.Holds.start : Walk.start.Holds [] :=
  ⟨Walk.Follows.start, rfl⟩

private theorem Walk.Holds.kept : Kept fun h w => w.Holds h where
  symbol hw hstep := ⟨hw.follows.symbol _ hstep, files_takeIn hw.files hstep _⟩
  skip hw hqueue hin := ⟨hw.follows.skip hqueue hin, hw.files⟩
  found hw hqueue hstep :=
    ⟨hw.follows.found hqueue hstep, files_takeIn (by exact hw.files) hstep _⟩
  lacking hw hqueue e := by
    refine ⟨hw.follows.lacking hqueue e, ?_⟩
    rw [received_concat]
    exact hw.files

/-- Each name was not asked for before, is not that of a file received before, and is imported by one. -/
def Justified (h : List Exchange) : Prop :=
  ∀ before name answer after, h = before ++ ⟨.file name, answer⟩ :: after →
    name ∉ askedNames before ∧ name ∉ (received before).names ∧
      ∃ f ∈ before.flatMap Exchange.files, name ∈ f.dependencies

private theorem Justified.nil : Justified [] := by
  intro before name answer after heq
  simp at heq

private theorem Justified.concat {h : List Exchange} (hh : Justified h) {e : Exchange}
    (hlast : ∀ name answer, e = ⟨.file name, answer⟩ → name ∉ askedNames h ∧
      name ∉ (received h).names ∧ ∃ f ∈ h.flatMap Exchange.files, name ∈ f.dependencies) :
    Justified (h ++ [e]) := by
  intro before name answer after heq
  rcases after.eq_nil_or_concat with rfl | ⟨rest, last, rfl⟩
  · obtain ⟨rfl, hsame⟩ := List.append_inj' heq rfl
    exact hlast name answer (List.cons.inj hsame).1
  · rw [List.concat_eq_append, ← List.cons_append, ← List.append_assoc] at heq
    exact hh before name answer rest (List.append_inj' heq rfl).1

theorem Justified.nodup {h : List Exchange} (hh : Justified h) : (askedNames h).Nodup := by
  induction h using List.reverseRecOn with
  | nil => simp [askedNames]
  | append_singleton rest e ih =>
    have hrest : (askedNames rest).Nodup := by
      apply ih
      intro before name answer after heq
      apply hh before name answer (after ++ [e])
      rw [heq, List.append_assoc, List.cons_append]
    rw [askedNames_append]
    obtain ⟨query, answer⟩ := e
    cases query with
    | services => rwa [show askedNames [⟨.services, answer⟩] = [] from rfl, List.append_nil]
    | symbol name => rwa [show askedNames [⟨.symbol name, answer⟩] = [] from rfl, List.append_nil]
    | file name =>
      have hnew := (hh rest name answer [] rfl).1
      exact List.nodup_append.mpr ⟨hrest, List.nodup_singleton name,
        fun n hn m hm heq => hnew (List.mem_singleton.mp hm ▸ heq ▸ hn)⟩

private theorem Justified.keptByAsking : KeptByAsking (fun h w => w.Holds h) Justified where
  symbol hh symbol answer := by
    apply hh.concat
    rintro name answer ⟨⟩
  file {h w name queue} hw hqueue hout hh answer := by
    apply hh.concat
    rintro name answer ⟨⟩
    obtain ⟨past, hpast, hsub⟩ := hw.follows.past
    have hqueued : name ∈ w.queued := by simp [hpast, hqueue]
    refine ⟨?_, ?_, ?_⟩
    · intro hasked
      have hnd := hw.follows.tracks.distinct
      rw [hpast, hqueue, List.nodup_append] at hnd
      exact hnd.2.2 name (hsub.subset hasked) name List.mem_cons_self rfl
    · rw [Closure.names, ← hw.files]
      exact hout
    · obtain ⟨f, hf, hdep⟩ := hw.follows.tracks.imported name hqueued
      exact ⟨f, mem_of_mem_received (hw.files ▸ hf), hdep⟩

variable {σ : Type} {server : Server σ} {limit : Option Duration}

/-- Symbols are asked for in order, each once, as long as no query fails. -/
theorem symbolExchanges_prefix (t : Trace σ) (s : Session) (w : Walk) (symbols : List String) :
    (symbolExchanges server limit t s w symbols).map Exchange.query <+: symbols.map Query.symbol := by
  induction symbols generalizing t s w with
  | nil => exact List.nil_prefix
  | cons symbol rest ih =>
    rw [symbolExchanges]
    rcases requestFiles server limit t s (.symbol symbol) with ⟨t₁, s₁, answer⟩
    cases answer with
    | error e => exact ⟨rest.map Query.symbol, rfl⟩
    | ok files =>
      cases hstep : w.takeIn files with
      | error e => simp [hstep]
      | ok w₁ => simpa [hstep] using ih t₁ s₁ w₁

private theorem symbolExchanges_complete {t t' : Trace σ} {s s' : Session} {w w' : Walk}
    {symbols : List String} (hrun : askSymbols server limit t s w symbols = (t', s', .ok w')) :
    (symbolExchanges server limit t s w symbols).map Exchange.query = symbols.map Query.symbol := by
  induction symbols generalizing t s w with
  | nil => rfl
  | cons symbol rest ih =>
    rw [askSymbols] at hrun
    rw [symbolExchanges]
    rcases hreply : requestFiles server limit t s (.symbol symbol) with ⟨t₁, s₁, answer⟩
    simp only [hreply] at hrun ⊢
    cases answer with
    | error e => simp at hrun
    | ok files =>
      cases hstep : w.takeIn files with
      | error e => simp [hstep] at hrun
      | ok w₁ =>
        simp only [hstep] at hrun ⊢
        simp [ih hrun]

private theorem importExchanges_files (fuel : Nat) (t : Trace σ) (s : Session) (w : Walk) :
    (importExchanges server limit fuel t s w).map Exchange.query =
      (askedNames (importExchanges server limit fuel t s w)).map Query.file := by
  induction fuel generalizing t s w with
  | zero => rfl
  | succ fuel ih =>
    cases hqueue : w.queue with
    | nil =>
      rw [importExchanges_nil _ t s hqueue]
      rfl
    | cons name queue =>
      cases turn server limit t s hqueue with
      | skip _ _ hasked => rw [hasked, ih]
      | found _ _ _ _ hasked => rw [hasked, askedNames_cons_file, List.map_cons, List.map_cons, ih]
      | lacking _ _ _ _ hasked => rw [hasked, askedNames_cons_file, List.map_cons, List.map_cons, ih]
      | failed _ _ _ hasked =>
        rw [hasked]
        rfl

private theorem Walk.Holds.length_takeIn {h : List Exchange} {w w' : Walk} (hw : w.Holds h)
    {queue : List String} {files : List File} (hstep : Walk.takeIn { w with queue } files = .ok w') :
    w'.queue.length + w.queued.length = queue.length + w'.queued.length := by
  have htracks := hw.follows.tracks
  have htaken : Walk.Tracks (h.flatMap Exchange.files) { w with queue } :=
    ⟨htracks.names, htracks.covered, htracks.imported, htracks.distinct⟩
  obtain ⟨added, hqueued, hqueue⟩ := (htaken.takeIn hstep).2.queues
  simp only at hqueued hqueue
  rw [hqueued, hqueue, List.length_append, List.length_append]
  omega

private theorem Walk.Holds.length_queued_le {h : List Exchange} {w : Walk} (hw : w.Holds h)
    {names : Finset String}
    (hnames : ∀ f ∈ h.flatMap Exchange.files, ∀ name ∈ f.dependencies, name ∈ names) :
    w.queued.length ≤ names.card := by
  rw [← List.toFinset_card_of_nodup hw.follows.tracks.distinct]
  apply Finset.card_le_card
  intro name hname
  obtain ⟨f, hf, hdep⟩ := hw.follows.tracks.imported name (List.mem_toFinset.mp hname)
  exact hnames f (mem_of_mem_received (hw.files ▸ hf)) name hdep

/-- The walk ends if there is fuel for all names that were not taken from the queue yet: these decrease
with every turn, although the queue itself may grow. -/
private theorem askImports_ends {names : Finset String} {fuel : Nat} {h : List Exchange} {t : Trace σ}
    {s : Session} {w : Walk} (hw : w.Holds h)
    (hnames : ∀ f ∈ (h ++ importExchanges server limit fuel t s w).flatMap Exchange.files,
      ∀ name ∈ f.dependencies, name ∈ names)
    (hfuel : names.card + w.queue.length ≤ fuel + w.queued.length) :
    ∃ t' s' result, askImports server limit fuel t s w = (t', s', some result) := by
  induction fuel generalizing h t s w with
  | zero =>
    rw [importExchanges, List.append_nil] at hnames
    have hle := hw.length_queued_le hnames
    have hempty : w.queue = [] := List.eq_nil_of_length_eq_zero (by omega)
    exact ⟨t, s, .ok w, askImports_nil 0 t s hempty⟩
  | succ fuel ih =>
    cases hqueue : w.queue with
    | nil => exact ⟨t, s, .ok w, askImports_nil _ t s hqueue⟩
    | cons name queue =>
      rw [hqueue, List.length_cons] at hfuel
      cases turn server limit t s hqueue with
      | skip hin hrun hasked =>
        rw [hasked] at hnames
        rw [hrun]
        exact ih (Walk.Holds.kept.skip hw hqueue hin) hnames (by simp only; omega)
      | found hout hreply hstep hrun hasked =>
        have hlength := hw.length_takeIn hstep
        rw [hasked, List.append_cons] at hnames
        rw [hrun]
        exact ih (Walk.Holds.kept.found hw hqueue hstep) hnames (by omega)
      | lacking hout hreply hnot hrun hasked =>
        rw [hasked, List.append_cons] at hnames
        rw [hrun]
        exact ih (Walk.Holds.kept.lacking hw hqueue _) hnames (by simp only; omega)
      | failed hout hreply hrun hasked => exact ⟨_, _, _, hrun fuel⟩

private theorem askImports_add {fuel : Nat} {t t' : Trace σ} {s s' : Session} {w : Walk}
    {result : Except Error Walk}
    (hends : askImports server limit fuel t s w = (t', s', some result)) (more : Nat) :
    askImports server limit (fuel + more) t s w = (t', s', some result) := by
  induction fuel generalizing t s w with
  | zero =>
    by_cases hqueue : w.queue = []
    · rw [askImports_nil _ t s hqueue] at hends ⊢
      exact hends
    · rw [askImports_zero t s hqueue] at hends
      cases hends
  | succ fuel ih =>
    rw [Nat.succ_add]
    cases hqueue : w.queue with
    | nil =>
      rw [askImports_nil _ t s hqueue] at hends ⊢
      exact hends
    | cons name queue =>
      cases turn server limit t s hqueue with
      | skip _ hrun _ =>
        rw [hrun] at hends ⊢
        exact ih hends
      | found _ _ _ hrun _ =>
        rw [hrun] at hends ⊢
        exact ih hends
      | lacking _ _ _ hrun _ =>
        rw [hrun] at hends ⊢
        exact ih hends
      | failed _ _ hrun _ =>
        rw [hrun] at hends ⊢
        exact hends

/-- The queries that were sent on a stream, those that the server has not read yet last. -/
def Trace.sent (t : Trace σ) : List Query :=
  (t.read ++ t.waiting).map Prod.snd

private theorem Trace.sent_letGo (t : Trace σ) (s after : Session) : (t.letGo s after).sent = t.sent := by
  rw [Trace.sent, letGo_read, letGo_waiting, Trace.sent]

private theorem beginStream_sent (server : Server σ) (t : Trace σ) (s : Session) (query : Query) :
    (beginStream server t s query).1.sent = t.sent ∧
      ∀ e, (beginStream server t s query).2 = .error e → e.saysNotFound = false := by
  rw [beginStream]
  rcases server.opening t.server query with ⟨state, opening⟩
  cases opening with
  | served => exact ⟨rfl, fun e he => by cases he⟩
  | refused status => exact ⟨rfl, fun e he => by cases he; rfl⟩
  | ended => exact ⟨rfl, fun e he => by cases he⟩

private theorem send_sent (server : Server σ) (t : Trace σ) (s : Session) (query : Query) :
    (send server t s query).1.sent = t.sent ∧
      ∀ e, (send server t s query).2 = .error e → e.saysNotFound = false := by
  rw [send]
  cases s.stream with
  | none => exact ⟨rfl, fun e he => by cases he; rfl⟩
  | some stream =>
    simp only
    split
    · exact ⟨rfl, fun e he => by cases he⟩
    · exact ⟨rfl, fun e he => by cases he; rfl⟩

private theorem dispatch_sent (server : Server σ) (t : Trace σ) (s : Session) (query : Query) :
    (dispatch server t s query).1.sent = t.sent ∧
      ∀ e, (dispatch server t s query).2 = .error e → e.saysNotFound = false := by
  rw [dispatch]
  cases s.phase with
  | closed => exact ⟨rfl, fun e he => by cases he; rfl⟩
  | unopened => exact beginStream_sent server t s query
  | ready => exact send_sent server t s query
  | awaiting => exact send_sent server t s query

private theorem exchange_sent (server : Server σ) (limit : Option Duration) (t : Trace σ)
    (stream : Stream) (query : Query) :
    (exchange server limit t stream query).1.sent = t.sent ++ [query] ∨
      (exchange server limit t stream query).1.sent = t.sent ∧
        (exchange server limit t stream query).2 = .error .streamEnded := by
  rw [exchange]
  by_cases hended : stream.ended = true
  · right
    rw [if_pos hended]
    exact ⟨rfl, rfl⟩
  · rw [if_neg hended]
    left
    by_cases hover : t.isOver limit = true
    · rw [if_pos hover]
      simp [Trace.sent]
    · rw [if_neg hover]
      rcases server.reply (drain server t).server stream.number query with ⟨state, reply⟩
      simp only
      split
      · simp [Trace.sent, drain]
      · simp [take, Trace.sent, drain]

private theorem requestFiles_sent (server : Server σ) (limit : Option Duration) (t : Trace σ) (s : Session)
    (query : Query) :
    (requestFiles server limit t s query).1.sent = t.sent ++ [query] ∨
      (requestFiles server limit t s query).1.sent = t.sent ∧
        ∃ e, (requestFiles server limit t s query).2.2 = .error e ∧ e.saysNotFound = false := by
  obtain ⟨hsent, herror⟩ := dispatch_sent server t s query
  rw [requestFiles, request]
  rcases hdispatch : dispatch server t s query with ⟨t₁, result⟩
  rw [hdispatch] at hsent herror
  cases result with
  | error e =>
    simp only [conclude, Trace.sent_letGo]
    exact Or.inr ⟨hsent, e, rfl, herror e rfl⟩
  | ok s₁ =>
    simp only at hsent ⊢
    cases hstream : s₁.stream with
    | none => exact Or.inr ⟨hsent, .streamEnded, rfl, rfl⟩
    | some stream =>
      simp only [conclude, Trace.sent_letGo]
      rcases exchange_sent server limit t₁ stream query with hnew | ⟨hold, hended⟩
      · exact Or.inl (hsent ▸ hnew)
      · refine Or.inr ⟨hsent ▸ hold, .streamEnded, ?_, rfl⟩
        rw [hended]
        rfl

/-- All queries were sent, in order; if the run failed, the last one perhaps was not. -/
def SentIn (t t' : Trace σ) (queries : List Query) (failed : Prop) : Prop :=
  t'.sent = t.sent ++ queries ∨ failed ∧ t'.sent = t.sent ++ queries.dropLast

private theorem SentIn.of_append {t t' t'' : Trace σ} {first queries : List Query} {failed : Prop}
    (hfirst : t'.sent = t.sent ++ first) (h : SentIn t' t'' queries failed) :
    SentIn t t'' (first ++ queries) failed := by
  rcases h with h | ⟨hfailed, h⟩
  · exact Or.inl (by rw [h, hfirst, List.append_assoc])
  · by_cases hempty : queries = []
    · left
      rw [h, hfirst, hempty, List.dropLast_nil, List.append_nil, List.append_nil]
    · right
      rw [List.dropLast_append_of_ne_nil hempty, h, hfirst, List.append_assoc]
      exact ⟨hfailed, rfl⟩

private theorem SentIn.imp {t t' : Trace σ} {queries : List Query} {failed failed' : Prop}
    (h : SentIn t t' queries failed) (himp : failed → failed') : SentIn t t' queries failed' :=
  Or.imp_right (fun hlast => ⟨himp hlast.1, hlast.2⟩) h

private theorem SentIn.of_last {t t' : Trace σ} {query : Query} {failed : Prop} (hfailed : failed)
    (h : t'.sent = t.sent ++ [query] ∨ t'.sent = t.sent) : SentIn t t' [query] failed := by
  rcases h with h | h
  · exact Or.inl h
  · exact Or.inr ⟨hfailed, by rw [h, List.dropLast_singleton, List.append_nil]⟩

private theorem requestFiles_sent_of_eq {t t' : Trace σ} {s s' : Session} {query : Query}
    {answer : Except Error (List File)}
    (hreply : requestFiles server limit t s query = (t', s', answer)) :
    (t'.sent = t.sent ++ [query] ∨ t'.sent = t.sent) ∧
      ((∀ e, answer = .error e → e.saysNotFound = true) → t'.sent = t.sent ++ [query]) := by
  have hsent := requestFiles_sent server limit t s query
  rw [hreply] at hsent
  rcases hsent with hnew | ⟨hold, e, he, hnot⟩
  · exact ⟨Or.inl hnew, fun _ => hnew⟩
  · refine ⟨Or.inr hold, fun hfound => ?_⟩
    have hsays := hfound e he
    rw [hnot] at hsays
    cases hsays

private theorem askSymbols_sent (t : Trace σ) (s : Session) (w : Walk) (symbols : List String) :
    SentIn t (askSymbols server limit t s w symbols).1
      ((symbolExchanges server limit t s w symbols).map Exchange.query)
      (∃ e, (askSymbols server limit t s w symbols).2.2 = .error e) := by
  induction symbols generalizing t s w with
  | nil => exact Or.inl (List.append_nil _).symm
  | cons symbol rest ih =>
    rw [askSymbols, symbolExchanges]
    rcases hreply : requestFiles server limit t s (.symbol symbol) with ⟨t₁, s₁, answer⟩
    obtain ⟨hlast, hsent⟩ := requestFiles_sent_of_eq hreply
    cases answer with
    | error e => exact SentIn.of_last ⟨e, rfl⟩ hlast
    | ok files =>
      cases hstep : w.takeIn files with
      | error e =>
        simp only [hstep]
        exact SentIn.of_last ⟨e, rfl⟩ hlast
      | ok w₁ =>
        simp only [hstep]
        exact SentIn.of_append (hsent (by simp)) (ih t₁ s₁ w₁)

private theorem askImports_sent (server : Server σ) (limit : Option Duration) (fuel : Nat) (t : Trace σ)
    (s : Session) (w : Walk) :
    SentIn t (askImports server limit fuel t s w).1
      ((importExchanges server limit fuel t s w).map Exchange.query)
      (∃ e, (askImports server limit fuel t s w).2.2 = some (.error e)) := by
  induction fuel generalizing t s w with
  | zero => exact Or.inl (List.append_nil _).symm
  | succ fuel ih =>
    cases hqueue : w.queue with
    | nil =>
      rw [askImports_nil _ t s hqueue, importExchanges_nil _ t s hqueue]
      exact Or.inl (List.append_nil _).symm
    | cons name queue =>
      cases turn server limit t s hqueue with
      | skip _ hrun hasked =>
        rw [hrun, hasked]
        exact ih t s _
      | found _ hreply _ hrun hasked =>
        rw [hrun, hasked]
        exact SentIn.of_append ((requestFiles_sent_of_eq hreply).2 (by simp)) (ih _ _ _)
      | lacking _ hreply hnot hrun hasked =>
        rw [hrun, hasked]
        refine SentIn.of_append ((requestFiles_sent_of_eq hreply).2 ?_) (ih _ _ _)
        rintro e ⟨⟩
        exact hnot
      | failed _ hreply hrun hasked =>
        rw [hrun, hasked]
        exact SentIn.of_last ⟨_, rfl⟩ (requestFiles_sent_of_eq hreply).1

private theorem resolve_sent (fuel : Nat) (t : Trace σ) (s : Session) (symbols : List String) :
    SentIn t (resolve server limit fuel t s symbols).1
      ((exchanges server limit fuel t s symbols).map Exchange.query)
      (∃ e, (resolve server limit fuel t s symbols).2.2 = some (.error e)) := by
  have hsymbols : SentIn t (askSymbols server limit t s Walk.start symbols).1 _ _ :=
    askSymbols_sent t s Walk.start symbols
  rcases hrun : askSymbols server limit t s Walk.start symbols with ⟨t₁, s₁, result⟩
  rw [hrun] at hsymbols
  cases result with
  | error e =>
    obtain ⟨hresolve, hexchanges⟩ := resolve_of_error hrun fuel
    rw [hresolve, hexchanges]
    exact hsymbols.imp fun _ => ⟨e, rfl⟩
  | ok w =>
    obtain ⟨hresolve, hexchanges⟩ := resolve_of_ok hrun fuel
    rw [hresolve, hexchanges, List.map_append]
    rcases hsymbols with h | ⟨⟨e, he⟩, -⟩
    · apply SentIn.of_append h
      apply (askImports_sent server limit fuel t₁ s₁ w).imp
      rintro ⟨e, he⟩
      exact ⟨e, by rw [he]; rfl⟩
    · cases he

/-- How a run asks: every query was sent; symbols come first, each once and in order, and all of them
unless a query fails; no name is asked for twice, or while its file is held, or unless a file received
before imports it; and what is found is what was received. -/
structure IsDisciplined (symbols : List String) (h : List Exchange) (t t' : Trace σ)
    (result : Option (Except Error Closure)) : Prop where
  sent : SentIn t t' (h.map Exchange.query) (∃ e, result = some (.error e))
  order : ∃ asked, h.map Exchange.query = asked ++ (askedNames h).map Query.file ∧
    asked <+: symbols.map Query.symbol ∧ (askedNames h ≠ [] → asked = symbols.map Query.symbol)
  complete : (∀ e, result ≠ some (.error e)) → symbols.map Query.symbol <+: h.map Exchange.query
  once : (askedNames h).Nodup
  absent : ∀ before name answer after, h = before ++ ⟨.file name, answer⟩ :: after →
    name ∉ (received before).names
  imported : ∀ before name answer after, h = before ++ ⟨.file name, answer⟩ :: after →
    ∃ f ∈ before.flatMap Exchange.files, name ∈ f.dependencies
  found : ∀ c, result = some (.ok c) → c.files = (received h).files

theorem askedNames_eq_nil {h : List Exchange} {symbols : List String}
    (hh : h.map Exchange.query <+: symbols.map Query.symbol) : askedNames h = [] := by
  rw [List.eq_nil_iff_forall_not_mem]
  intro name hname
  obtain ⟨answer, he⟩ := mem_askedNames.mp hname
  have hquery := hh.subset (List.mem_map_of_mem (f := Exchange.query) he)
  obtain ⟨symbol, -, heq⟩ := List.mem_map.mp hquery
  cases heq

private theorem resolve_order (server : Server σ) (limit : Option Duration) (fuel : Nat) (t : Trace σ)
    (s : Session) (symbols : List String) :
    (∃ asked, (exchanges server limit fuel t s symbols).map Exchange.query =
        asked ++ (askedNames (exchanges server limit fuel t s symbols)).map Query.file ∧
      asked <+: symbols.map Query.symbol ∧
        (askedNames (exchanges server limit fuel t s symbols) ≠ [] →
          asked = symbols.map Query.symbol)) ∧
      ((∀ e, (resolve server limit fuel t s symbols).2.2 ≠ some (.error e)) →
        symbols.map Query.symbol <+: (exchanges server limit fuel t s symbols).map Exchange.query) := by
  have hprefix : (symbolExchanges server limit t s Walk.start symbols).map Exchange.query <+: _ :=
    symbolExchanges_prefix t s Walk.start symbols
  have hnone := askedNames_eq_nil hprefix
  rcases hrun : askSymbols server limit t s Walk.start symbols with ⟨t₁, s₁, result⟩
  cases result with
  | error e =>
    obtain ⟨hresolve, hexchanges⟩ := resolve_of_error hrun fuel
    rw [hresolve, hexchanges, hnone]
    refine ⟨⟨_, (List.append_nil _).symm, hprefix, fun h => absurd rfl h⟩, ?_⟩
    intro hok
    exact absurd rfl (hok e)
  | ok w =>
    obtain ⟨-, hexchanges⟩ := resolve_of_ok hrun fuel
    have hall := symbolExchanges_complete hrun
    rw [hexchanges, askedNames_append, hnone, List.nil_append, List.map_append, hall,
      importExchanges_files]
    exact ⟨⟨_, rfl, List.prefix_rfl, fun _ => rfl⟩, fun _ => List.prefix_append _ _⟩

private theorem resolve_isDisciplined (server : Server σ) (limit : Option Duration) (fuel : Nat)
    (t : Trace σ) (s : Session) (symbols : List String) :
    IsDisciplined symbols (exchanges server limit fuel t s symbols) t
      (resolve server limit fuel t s symbols).1 (resolve server limit fuel t s symbols).2.2 := by
  obtain ⟨hjustified, hheld⟩ : Justified (exchanges server limit fuel t s symbols) ∧ _ :=
    Walk.Holds.kept.run Justified.keptByAsking fuel t s symbols Walk.Holds.start Justified.nil
  obtain ⟨horder, hcomplete⟩ := resolve_order server limit fuel t s symbols
  refine ⟨resolve_sent fuel t s symbols, horder, hcomplete, hjustified.nodup, ?_, ?_, ?_⟩
  · intro before name answer after heq
    exact (hjustified before name answer after heq).2.1
  · intro before name answer after heq
    exact (hjustified before name answer after heq).2.2
  · intro c hc
    obtain ⟨w, rfl, -, hw⟩ := hheld c hc
    exact hw.files

/-- The names that files import bound the queries about files. -/
theorem IsDisciplined.length_le {symbols : List String} {h : List Exchange} {t t' : Trace σ}
    {result : Option (Except Error Closure)} (hd : IsDisciplined symbols h t t' result)
    {names : Finset String}
    (hnames : ∀ f ∈ h.flatMap Exchange.files, ∀ name ∈ f.dependencies, name ∈ names) :
    h.length ≤ symbols.length + names.card := by
  obtain ⟨asked, hqueries, hprefix, -⟩ := hd.order
  have hasked : (askedNames h).length ≤ names.card := by
    rw [← List.toFinset_card_of_nodup hd.once]
    apply Finset.card_le_card
    intro name hname
    obtain ⟨answer, he⟩ := mem_askedNames.mp (List.mem_toFinset.mp hname)
    obtain ⟨before, after, rfl⟩ := List.append_of_mem he
    obtain ⟨f, hf, hdep⟩ := hd.imported before name answer after rfl
    exact hnames f (by simp [hf]) name hdep
  have hsymbols : asked.length ≤ symbols.length := by simpa using hprefix.length_le
  have hlength := congrArg List.length hqueries
  rw [List.length_map, List.length_append, List.length_map] at hlength
  omega

theorem resolve_ends {names : Finset String} {fuel : Nat} {t : Trace σ} {s : Session}
    {symbols : List String}
    (hnames : ∀ f ∈ (exchanges server limit fuel t s symbols).flatMap Exchange.files,
      ∀ name ∈ f.dependencies, name ∈ names) (hfuel : names.card ≤ fuel) :
    ∃ t' s' result, ∀ more,
      resolve server limit (fuel + more) t s symbols = (t', s', some result) := by
  rcases hrun : askSymbols server limit t s Walk.start symbols with ⟨t₁, s₁, result⟩
  cases result with
  | error e => exact ⟨t₁, s₁, .error e, fun more => (resolve_of_error hrun _).1⟩
  | ok w =>
    have hw : w.Holds ([] ++ symbolExchanges server limit t s Walk.start symbols) :=
      (Walk.Holds.kept.runSymbols keptByAsking_true t s symbols Walk.Holds.start trivial).2 _ _ _ hrun
    rw [(resolve_of_ok hrun fuel).2] at hnames
    obtain ⟨past, hpast, -⟩ := hw.follows.past
    have hqueue : w.queue.length ≤ w.queued.length := by simp [hpast]
    obtain ⟨t₂, s₂, result, hends⟩ := askImports_ends hw hnames (by omega)
    refine ⟨t₂, s₂, result.map (·.closure), fun more => ?_⟩
    rw [(resolve_of_ok hrun _).1, askImports_add hends more]
    rfl

/-- A discovery asks with discipline whatever the server replies, and if the received files import only
some names, it asks for no more than the symbols and these names, and ends. -/
theorem resolve_disciplined (server : Server σ) (limit : Option Duration) (fuel : Nat)
    (t : Trace σ) (s : Session) (symbols : List String) :
    IsDisciplined symbols (exchanges server limit fuel t s symbols) t
        (resolve server limit fuel t s symbols).1 (resolve server limit fuel t s symbols).2.2 ∧
      ∀ names : Finset String,
        (∀ f ∈ (exchanges server limit fuel t s symbols).flatMap Exchange.files,
          ∀ name ∈ f.dependencies, name ∈ names) →
        (exchanges server limit fuel t s symbols).length ≤ symbols.length + names.card ∧
          (names.card ≤ fuel → ∃ t' s' result, ∀ more,
            resolve server limit (fuel + more) t s symbols = (t', s', some result)) := by
  have hdisciplined := resolve_isDisciplined server limit fuel t s symbols
  exact ⟨hdisciplined, fun names hnames => ⟨hdisciplined.length_le hnames, resolve_ends hnames⟩⟩

/-- A server with two files that import each other, one of them itself as well. -/
def cyclicTable : Sample.Table :=
  ⟨.served, [("symbol:s.S", handingOut [bareFile "a.proto" ["a.proto", "b.proto"]]),
    ("file:b.proto", handingOut [bareFile "b.proto" ["b.proto", "a.proto"]])], false⟩

private theorem received_cyclicTable :
    (exchanges cyclicTable.server none 2 (.start []) .new ["s.S"]).flatMap Exchange.files =
      [bareFile "a.proto" ["a.proto", "b.proto"], bareFile "b.proto" ["b.proto", "a.proto"]] := by
  decide +kernel

theorem resolve_disciplined_cyclic :
    (∀ f ∈ (exchanges cyclicTable.server none 2 (.start []) .new ["s.S"]).flatMap Exchange.files,
      ∀ name ∈ f.dependencies, name ∈ ({"a.proto", "b.proto"} : Finset String)) ∧
    (exchanges cyclicTable.server none 2 (.start []) .new ["s.S"]).length ≤ 3 ∧
    ∃ t' s' result, ∀ more,
      resolve cyclicTable.server none (2 + more) (.start []) .new ["s.S"] = (t', s', some result) := by
  have hnames : ∀ f ∈ (exchanges cyclicTable.server none 2 (.start []) .new ["s.S"]).flatMap
      Exchange.files, ∀ name ∈ f.dependencies, name ∈ ({"a.proto", "b.proto"} : Finset String) := by
    rw [received_cyclicTable]
    decide
  obtain ⟨hlength, hends⟩ :=
    (resolve_disciplined cyclicTable.server none 2 (.start []) .new ["s.S"]).2 _ hnames
  exact ⟨hnames, hlength, hends (by decide)⟩

end RpcGateway.Reflection
