import RpcGateway.Reflection.Session
/-!
# Sessions that can ask

A session can ask if its next query reaches the server: it has no stream yet, or one that goes on. After an
answer it can ask again, and after an error too once it is reopened, whether the error came as a response,
ended the stream or kept one from being opened.
-/
namespace RpcGateway.Reflection

/-- A session whose next query reaches the server: it has no stream yet, or one that goes on. -/
def Session.CanAsk (s : Session) : Prop :=
  s.phase = .unopened ∨ (s.phase = .ready ∧ ∃ number, s.stream = some ⟨number, false⟩)

theorem Session.canAsk_new : Session.new.CanAsk := Or.inl rfl

/-- How many streams the next query opens. -/
def Session.opens (s : Session) : Nat :=
  if s.phase = .unopened then 1 else 0

variable {σ : Type} {server : Server σ} {limit : Option Duration}

/-- What becomes of a query that a session sends: it goes out on a stream, or the server keeps it from
being read. -/
inductive Dispatched (server : Server σ) (t : Trace σ) (query : Query) : Except Error Session → Prop
  | onStream {s : Session} {stream : Stream} (hstream : s.stream = some stream)
      (hended : stream.ended = true → (server.opening t.server query).2 = .ended) :
      Dispatched server t query (.ok s)
  | refused {status : Status} (hrefused : (server.opening t.server query).2 = .refused status) :
      Dispatched server t query (.error (.openFailed status))
  | unread {number : Nat} (hunread : server.reads t.server number = false) :
      Dispatched server t query (.error .notSent)

theorem beginStream_dispatched (server : Server σ) (t : Trace σ) (s : Session) (query : Query) :
    Dispatched server t query (beginStream server t s query).2 := by
  rw [beginStream]
  rcases hopening : server.opening t.server query with ⟨state, opening⟩
  have hout : (server.opening t.server query).2 = opening := congrArg Prod.snd hopening
  cases opening with
  | served => exact .onStream rfl fun h => by cases h
  | refused status => exact .refused hout
  | ended => exact .onStream rfl fun _ => hout

theorem dispatch_dispatched (server : Server σ) (t : Trace σ) {s : Session} (hs : s.CanAsk)
    (query : Query) : Dispatched server t query (dispatch server t s query).2 := by
  rcases hs with hphase | ⟨hphase, number, hstream⟩
  · rw [dispatch, hphase]
    exact beginStream_dispatched server t s query
  · rw [dispatch, hphase]
    simp only [send, hstream]
    by_cases hreads : server.reads t.server number = true
    · rw [if_pos hreads]
      exact .onStream hstream fun h => by cases h
    · rw [if_neg hreads]
      exact .unread (Bool.eq_false_iff.mpr hreads)

/-- What comes of a query that went out on a stream: the stream had ended, the time is over, or the server
replied. -/
inductive Exchanged (server : Server σ) (limit : Option Duration) (stream : Stream) (query : Query) :
    Except Error Response → Prop
  | ended (hended : stream.ended = true) : Exchanged server limit stream query (.error .streamEnded)
  | late {d : Duration} (hlimit : d ∈ limit) : Exchanged server limit stream query (.error (.timeout d))
  | reply (state : σ) : Exchanged server limit stream query
      (receive (server.reply state stream.number query).2.outcome)

private theorem exchanged_timeout {t : Trace σ} (hover : t.isOver limit = true) (stream : Stream)
    (query : Query) : Exchanged server limit stream query (.error (.timeout (limit.getD ⟨0⟩))) := by
  cases limit with
  | none => cases hover
  | some d => exact .late rfl

theorem exchange_exchanged (server : Server σ) (limit : Option Duration) (t : Trace σ) (stream : Stream)
    (query : Query) :
    Exchanged server limit stream query (exchange server limit t stream query).2 := by
  by_cases hended : stream.ended = true
  · rw [exchange, if_pos hended]
    exact .ended hended
  · rw [exchange, if_neg hended]
    by_cases hover : t.isOver limit = true
    · rw [if_pos hover]
      exact exchanged_timeout hover stream query
    · rw [if_neg hover]
      have hreply : Exchanged server limit stream query _ := .reply (drain server t).server
      rcases server.reply (drain server t).server stream.number query with ⟨state, reply⟩
      simp only
      split
      · rename_i hlate
        exact exchanged_timeout hlate stream query
      · exact hreply

/-- What becomes of a query: it is not sent, or there is no stream to wait on, or the result of the exchange
settles the session. -/
inductive Requested (server : Server σ) (limit : Option Duration) (t : Trace σ) (s : Session)
    (query : Query) : Trace σ × Session × Except Error Response → Prop
  | unsent {t₁ : Trace σ} {e : Error} (hdispatch : dispatch server t s query = (t₁, .error e)) :
      Requested server limit t s query (t₁.letGo s (settle s (.error e)), settle s (.error e), .error e)
  | streamless {t₁ : Trace σ} {s₁ : Session} (hstream : s₁.stream = none) :
      Requested server limit t s query (t₁, s₁.close, .error .streamEnded)
  | exchanged {t₁ t₂ : Trace σ} {stream : Stream} {result : Except Error Response}
      (hexchange : exchange server limit t₁ stream query = (t₂, result)) :
      Requested server limit t s query
        (t₂.letGo ⟨.awaiting, some stream⟩ (settle ⟨.awaiting, some stream⟩ result),
          settle ⟨.awaiting, some stream⟩ result, result)

theorem request_requested (server : Server σ) (limit : Option Duration) (t : Trace σ) (s : Session)
    (query : Query) : Requested server limit t s query (request server limit t s query) := by
  rw [request]
  rcases hdispatch : dispatch server t s query with ⟨t₁, e | s₁⟩
  · exact .unsent hdispatch
  · cases hstream : s₁.stream with
    | none =>
      simp only [hstream]
      exact .streamless hstream
    | some stream =>
      simp only [hstream]
      exact .exchanged rfl

/-- A session that has a stream can ask after a result, reopened if it has to be, since a stream that has
ended gives no answer. -/
private theorem Session.canAsk_settle {s : Session} {stream : Stream} (hstream : s.stream = some stream)
    {result : Except Error Response} (hend : stream.ended = true → result = .error .streamEnded) :
    (settle s result).reopen.CanAsk ∧ ∀ response, result = .ok response → (settle s result).CanAsk := by
  by_cases hended : stream.ended = true
  · rw [hend hended]
    exact ⟨Or.inl rfl, fun _ h => by cases h⟩
  · have hready : Session.CanAsk { s with phase := .ready } :=
      Or.inr ⟨rfl, stream.number, by rw [hstream, ← Bool.eq_false_iff.mpr hended]⟩
    cases result with
    | ok response => exact ⟨hready, fun _ _ => hready⟩
    | error e =>
      refine ⟨?_, fun _ h => by cases h⟩
      cases hband : e.isInBand with
      | true =>
        rw [settle, if_pos hband]
        exact hready
      | false =>
        rw [settle, if_neg (Bool.eq_false_iff.mp hband)]
        exact Or.inl rfl

/-- Every query leaves a session that can ask, at once after an answer and reopened after an error. -/
theorem request_canAsk {t t' : Trace σ} {s s' : Session} (hs : s.CanAsk) {query : Query}
    {result : Except Error Response} (h : request server limit t s query = (t', s', result)) :
    s'.reopen.CanAsk ∧ ∀ response, result = .ok response → s'.CanAsk := by
  have hcases := dispatch_dispatched server t hs query
  rw [request] at h
  rcases hdispatch : dispatch server t s query with ⟨t₁, dispatched⟩
  rw [hdispatch] at h hcases
  cases hcases with
  | refused _ =>
    cases h
    exact ⟨Or.inl rfl, fun _ h => by cases h⟩
  | unread _ =>
    cases h
    exact ⟨Or.inl rfl, fun _ h => by cases h⟩
  | onStream hstream _ =>
    simp only [hstream] at h
    cases h
    refine Session.canAsk_settle rfl fun hended => ?_
    rw [exchange, if_pos hended]
    rfl

theorem requestFiles_canAsk {t t' : Trace σ} {s s' : Session} (hs : s.CanAsk) {query : Query}
    {answer : Except Error (List Schema.File)}
    (h : requestFiles server limit t s query = (t', s', answer)) :
    s'.reopen.CanAsk ∧ ∀ files, answer = .ok files → s'.CanAsk := by
  rw [requestFiles] at h
  rcases hrequest : request server limit t s query with ⟨t₁, s₁, result⟩
  rw [hrequest] at h
  cases h
  obtain ⟨hreopen, hok⟩ := request_canAsk hs hrequest
  refine ⟨hreopen, ?_⟩
  intro files hfiles
  cases result with
  | error e => cases hfiles
  | ok response => exact hok response rfl

theorem readFiles_error {files : List Bytes} {e : Error}
    (h : readFiles (.files files) = .error e) : ∃ reason, e = .decode reason := by
  rw [readFiles] at h
  induction files with
  | nil => cases h
  | cons file rest ih =>
    rw [List.mapM_cons] at h
    cases hfile : Schema.File.decode file with
    | error reason =>
      rw [hfile] at h
      cases h
      exact ⟨reason, rfl⟩
    | ok f =>
      rw [hfile] at h
      cases hrest : rest.mapM fun file => (Schema.File.decode file).mapError Error.decode with
      | error e' =>
        apply ih
        rw [hrest] at h ⊢
        cases h
        rfl
      | ok fs =>
        rw [hrest] at h
        cases h

end RpcGateway.Reflection
