import RpcGateway.Proofs.Reflection.Sessions
import RpcGateway.Reflection.Discovery
import RpcGateway.Sample.Reflection
/-!
# Asking a scripted server

A scripted server answers every query at once and from its tables alone. So a session that can ask gets
what the tables say, and can ask again: after a missing file too, once it is reopened if the stream failed.
-/
namespace RpcGateway.Reflection

/-- A limit that a server without delay never reaches. -/
def IsPositive (limit : Option Duration) : Prop :=
  ∀ d ∈ limit, 0 < d.nanoseconds

theorem isPositive_none : IsPositive none := by
  intro d hd
  cases hd

private theorem isOver_eq_false {σ : Type} {t : Trace σ} {limit : Option Duration} (hl : IsPositive limit)
    (ht : t.elapsed = ⟨0⟩) : t.isOver limit = false := by
  cases limit with
  | none => rfl
  | some d =>
    have hd := hl d rfl
    simp only [Trace.isOver, ht, decide_eq_false_iff_not]
    omega

end RpcGateway.Reflection

namespace RpcGateway.Sample.Script

open Reflection
open Schema (File)

variable (script : Script)

def file? (name : String) : Option File :=
  findLast? (·.nameText == name) script.files

/-- The file that a service is mapped to, if it is there. -/
def serviceFile? (service : String) : Option File :=
  (findLast? (·.1 == service) script.services).bind fun entry => script.file? entry.2

def userServices : List String :=
  (script.services.map Prod.fst).filter isUserService

/-- What comes of a query for files. -/
def answer (query : Query) : Except Error (List File) :=
  (receive (script.outcome query)).bind readFiles

/-- Files are read as they were written. -/
def ReadsBack : Prop :=
  ∀ f ∈ script.files, File.decode f.encode = .ok f

variable {script}

theorem mem_of_file? {name : String} {f : File} (h : script.file? name = some f) :
    f ∈ script.files ∧ f.nameText = name := by
  have hmem := List.mem_of_find?_eq_some h
  have hname := List.find?_some h
  exact ⟨List.mem_reverse.mp hmem, by simpa using hname⟩

theorem file?_nameText {name : String} {f : File} (h : script.file? name = some f) :
    script.file? f.nameText = some f := by
  rw [(mem_of_file? h).2, h]

theorem receive_lacking (script : Script) (message : String) :
    ∃ e, receive (script.lacking message) = .error e ∧ e.saysNotFound = true := by
  by_cases hmode : script.failStream = true
  · exact ⟨.streamFailed ⟨.notFound, message⟩, by simp [lacking, hmode, receive], rfl⟩
  · exact ⟨.server 5 message, by simp [lacking, hmode, receive, StatusCode.number], rfl⟩

private theorem answer_fileOutcome_some (hread : script.ReadsBack) {name : String} {f : File}
    (h : script.file? name = some f) :
    (receive (script.fileOutcome name)).bind readFiles = .ok [f] := by
  have hlist : script.fileOutcome name = .response (.files [f.encode]) := by
    rw [fileOutcome, show findLast? (·.nameText == name) script.files = some f from h]
  have hdecode : (File.decode f.encode).mapError Error.decode = .ok f := by
    rw [hread f (mem_of_file? h).1]
    rfl
  rw [hlist]
  show [f.encode].mapM (fun file => (File.decode file).mapError Error.decode) = .ok [f]
  rw [List.mapM_cons, List.mapM_nil, hdecode]
  rfl

private theorem answer_fileOutcome_none {name : String} (h : script.file? name = none) :
    ∃ e, (receive (script.fileOutcome name)).bind readFiles = .error e ∧ e.saysNotFound = true := by
  obtain ⟨e, he, hnot⟩ := receive_lacking script ("file not found: " ++ name)
  refine ⟨e, ?_, hnot⟩
  rw [fileOutcome, show findLast? (·.nameText == name) script.files = none from h]
  simp [he, Except.bind]

theorem answer_file_some (hread : script.ReadsBack) {name : String} {f : File}
    (h : script.file? name = some f) : script.answer (.file name) = .ok [f] :=
  answer_fileOutcome_some hread h

theorem answer_file_none {name : String} (h : script.file? name = none) :
    ∃ e, script.answer (.file name) = .error e ∧ e.saysNotFound = true :=
  answer_fileOutcome_none h

theorem answer_symbol_some (hread : script.ReadsBack) {service : String} {f : File}
    (h : script.serviceFile? service = some f) : script.answer (.symbol service) = .ok [f] := by
  obtain ⟨entry, hentry, hfile⟩ := Option.bind_eq_some_iff.mp h
  rw [answer, outcome, hentry]
  exact answer_fileOutcome_some hread hfile

theorem answer_symbol_none {service : String} (h : script.serviceFile? service = none) :
    ∃ e, script.answer (.symbol service) = .error e := by
  rw [answer, outcome]
  cases hentry : findLast? (·.1 == service) script.services with
  | none =>
    obtain ⟨e, he, -⟩ := receive_lacking script ("symbol not found: " ++ service)
    exact ⟨e, by simp [he, Except.bind]⟩
  | some entry =>
    rw [serviceFile?, hentry] at h
    have hlacks : script.file? entry.2 = none := h
    obtain ⟨e, he, -⟩ := answer_fileOutcome_none hlacks
    exact ⟨e, he⟩

variable {limit : Option Duration} {t : Trace Unit} {s : Session}

/-- A server that reads everything at once, and answers some of the queries as the tables say. -/
structure Serves (script : Script) (asks : Query → Prop) (server : Server Unit) : Prop where
  opens : ∀ state query, server.opening state query = ((), .served)
  reads : ∀ state number, server.reads state number = true
  replies : ∀ state number query, asks query →
    server.reply state number query = ((), ⟨script.outcome query, ⟨0⟩⟩)

theorem serves_server (script : Script) : script.Serves (fun _ => True) script.server where
  opens _ _ := rfl
  reads _ _ := rfl
  replies _ _ _ _ := rfl

/-- A query was read on a stream that the session held or opened. -/
structure Reads (t : Trace Unit) (s : Session) (number : Nat) (query : Query) (t' : Trace Unit) : Prop where
  streams : t'.streams = t.streams + s.opens
  read : t'.read = t.read ++ t.waiting ++ [(number, query)]
  waiting : t'.waiting = []
  elapsed : t'.elapsed = t.elapsed

variable {asks : Query → Prop} {server : Server Unit}

theorem Serves.dispatch (h : script.Serves asks server) (t : Trace Unit) (hs : s.CanAsk) (query : Query) :
    ∃ number s' events, dispatch server t s query =
        ({ t with streams := t.streams + s.opens }.record events, .ok s') ∧
      s'.stream = some ⟨number, false⟩ := by
  rcases hs with hphase | ⟨hphase, number, hstream⟩
  · refine ⟨t.streams + 1, { s with phase := .ready, stream := some ⟨t.streams + 1, false⟩ },
      [.opened (t.streams + 1), .sent (t.streams + 1) query], ?_, rfl⟩
    have hopens : s.opens = 1 := if_pos hphase
    rw [Reflection.dispatch, hphase, hopens]
    simp only [beginStream, h.opens]
  · refine ⟨number, s, [.sent number query], ?_, hstream⟩
    have hopens : s.opens = 0 := by simp [Session.opens, hphase]
    rw [Reflection.dispatch, hphase, hopens]
    simp [send, hstream, h.reads]

theorem Serves.exchange (h : script.Serves asks server) (hl : IsPositive limit) (ht : t.elapsed = ⟨0⟩)
    (number : Nat) {query : Query} (hquery : asks query) :
    exchange server limit t ⟨number, false⟩ query =
      take { t with read := t.read ++ t.waiting ++ [(number, query)], waiting := [] } ⟨number, false⟩
        (script.outcome query) := by
  have hbefore : t.isOver limit = false := isOver_eq_false hl ht
  let t' : Trace Unit :=
    { t with read := t.read ++ t.waiting ++ [(number, query)], waiting := [] }
  have hafter : t'.isOver limit = false := isOver_eq_false hl ht
  simp only [Reflection.exchange, Bool.false_eq_true, if_false, hbefore, h.replies _ _ _ hquery]
  show (if t'.isOver limit = true then (t', Except.error (Error.timeout (limit.getD ⟨0⟩)))
    else take t' ⟨number, false⟩ (script.outcome query)) = _
  rw [if_neg (by simp [hafter])]

/-- A query to a scripted server is read, and gets what the tables say. -/
theorem Serves.request_read (h : script.Serves asks server) (hs : s.CanAsk) (hl : IsPositive limit)
    (ht : t.elapsed = ⟨0⟩) (query : Query) (hquery : asks query) :
    ∃ number s₁ t', request server limit t s query =
        (t', settle s₁ (receive (script.outcome query)), receive (script.outcome query)) ∧
      Reads t s number query t' := by
  obtain ⟨number, s₁, events, hdispatch, hstream⟩ := h.dispatch t hs query
  rw [Reflection.request, hdispatch]
  simp only [hstream]
  rw [h.exchange hl (by exact ht) number hquery]
  refine ⟨number, { s₁ with phase := .awaiting }, _, by rw [take, conclude, hstream], ?_⟩
  constructor <;> simp

theorem Serves.request (h : script.Serves asks server) (hs : s.CanAsk) (hl : IsPositive limit)
    (ht : t.elapsed = ⟨0⟩) {query : Query} (hquery : asks query) :
    ∃ t' s', request server limit t s query =
        (t', s', receive (script.outcome query)) ∧ t'.elapsed = ⟨0⟩ ∧ s'.reopen.CanAsk ∧
      ∀ response, receive (script.outcome query) = .ok response → s'.CanAsk := by
  obtain ⟨number, s₁, t', hrequest, hreads⟩ := h.request_read hs hl ht query hquery
  obtain ⟨hreopen, hok⟩ := request_canAsk hs hrequest
  exact ⟨_, _, hrequest, hreads.elapsed.trans ht, hreopen, hok⟩

theorem Serves.requestFiles (h : script.Serves asks server) (hs : s.CanAsk) (hl : IsPositive limit)
    (ht : t.elapsed = ⟨0⟩) {query : Query} (hquery : asks query) :
    ∃ t' s', requestFiles server limit t s query = (t', s', script.answer query) ∧
      t'.elapsed = ⟨0⟩ ∧ s'.reopen.CanAsk ∧
      ∀ files, script.answer query = .ok files → s'.CanAsk := by
  obtain ⟨t', s', hrequest, helapsed, hreopen, hok⟩ := h.request hs hl ht hquery
  refine ⟨t', s', by simp [Reflection.requestFiles, hrequest, answer], helapsed, hreopen, ?_⟩
  intro files hanswer
  cases hresult : receive (script.outcome query) with
  | error e => simp [answer, hresult, Except.bind] at hanswer
  | ok response => exact hok response hresult

end RpcGateway.Sample.Script
