import RpcGateway.Proofs.Reflection.Sessions
/-!
# Sessions that are given up

What a failed operation leaves of a session. An error that came as a response leaves it the stream, and the
stream serves the next query. Any other failure of an exchange gives the session up for good, and until it
is reopened it refuses every query without sending it. A response that came but is not what was asked for,
or holds a file that does not decode, is a failure as well, but leaves the session as it is.
-/
namespace RpcGateway.Reflection

/-- What can be done with a session. -/
inductive Operation where
  | request (query : Query)
  | files (query : Query)
  | reopen
  | close
  deriving DecidableEq, Repr

/-- The query that an operation sends. -/
def Operation.query? : Operation → Option Query
  | .request query => some query
  | .files query => some query
  | .reopen => none
  | .close => none

def errorOf? {α : Type} : Except Error α → Option Error
  | .ok _ => none
  | .error e => some e

variable {σ : Type}

/-- Does something with a session. What comes of it besides a new state is the error of a failure. -/
def perform (server : Server σ) (limit : Option Duration) (x : Trace σ × Session) :
    Operation → (Trace σ × Session) × Option Error
  | .request query =>
    let (t, s, result) := request server limit x.1 x.2 query
    ((t, s), errorOf? result)
  | .files query =>
    let (t, s, result) := requestFiles server limit x.1 x.2 query
    ((t, s), errorOf? result)
  | .reopen => ((x.1.letGo x.2 x.2.reopen, x.2.reopen), none)
  | .close => ((x.1.letGo x.2 x.2.close, x.2.close), none)

/-- Does one thing after the other with a session. -/
def performAll (server : Server σ) (limit : Option Duration) (x : Trace σ × Session)
    (operations : List Operation) : Trace σ × Session :=
  operations.foldl (fun x operation => (perform server limit x operation).1) x

/-- Where a new session is after some operations. -/
def reached (server : Server σ) (limit : Option Duration) (t : Trace σ) (operations : List Operation) :
    Trace σ × Session :=
  performAll server limit (t, .new) operations

/-- A session that was given up: it is closed and holds no stream, and whatever is done with it but reopening
it, it refuses every query and nothing is sent. -/
structure IsGivenUp (server : Server σ) (limit : Option Duration) (x : Trace σ × Session) : Prop where
  closed : x.2.phase = .closed
  released : x.2.stream = none
  refuses : ∀ operations, Operation.reopen ∉ operations → ∀ operation, operation.query?.isSome = true →
    perform server limit (performAll server limit x operations) operation = (x, some .streamEnded)

/-- A session whose stream goes on: the next query goes out on it, and no other stream is opened. -/
structure IsServedOn (server : Server σ) (limit : Option Duration) (number : Nat)
    (x : Trace σ × Session) : Prop where
  ready : x.2.phase = .ready
  held : x.2.stream = some ⟨number, false⟩
  next : server.reads x.1.server number = true → ∀ query,
    (request server limit x.1 x.2 query).1.read = x.1.read ++ [(number, query)] ∧
      (request server limit x.1 x.2 query).1.streams = x.1.streams

/-- What the failure of an operation should leave: a session that was given up, or, if the error came as a
response, one whose stream goes on, the stream on which the query was read. -/
structure IsHandled (server : Server σ) (limit : Option Duration) (operation : Operation) (e : Error)
    (x : Trace σ × Session) : Prop where
  closes : e.isInBand = false → IsGivenUp server limit x
  serves : e.isInBand = true → ∃ number query, operation.query? = some query ∧
    x.1.read.getLast? = some (number, query) ∧ IsServedOn server limit number x

/-- Whether an operation got a response that is not what it asked for, or holds a file that does not
decode. -/
def IsMisread (server : Server σ) (limit : Option Duration) (x : Trace σ × Session)
    (operation : Operation) : Prop :=
  ∃ query response e, operation = .files query ∧
    (request server limit x.1 x.2 query).2.2 = .ok response ∧ readFiles response = .error e

variable {server : Server σ} {limit : Option Duration} {t t' : Trace σ} {s s' : Session}
  {query : Query} {e : Error}

/-! ### Sessions that are closed -/

private theorem perform_closed (server : Server σ) (limit : Option Duration) (t : Trace σ)
    {operation : Operation} (hquery : operation.query?.isSome = true) :
    perform server limit (t, ⟨.closed, none⟩) operation =
      ((t, ⟨.closed, none⟩), some .streamEnded) := by
  cases operation with
  | request query => rfl
  | files query => rfl
  | reopen => cases hquery
  | close => cases hquery

private theorem performAll_closed (server : Server σ) (limit : Option Duration) (t : Trace σ)
    {operations : List Operation} (h : Operation.reopen ∉ operations) :
    performAll server limit (t, ⟨.closed, none⟩) operations = (t, ⟨.closed, none⟩) := by
  induction operations with
  | nil => rfl
  | cons operation rest ih =>
    rw [List.mem_cons, not_or] at h
    have hfirst : (perform server limit (t, ⟨.closed, none⟩) operation).1 = (t, ⟨.closed, none⟩) := by
      cases operation with
      | request query => rfl
      | files query => rfl
      | reopen => exact absurd rfl h.1
      | close => rfl
    rw [performAll, List.foldl_cons, hfirst]
    exact ih h.2

private theorem isGivenUp_closed (server : Server σ) (limit : Option Duration) (t : Trace σ) :
    IsGivenUp server limit (t, ⟨.closed, none⟩) where
  closed := rfl
  released := rfl
  refuses operations hclosed operation hquery := by
    rw [performAll_closed server limit t hclosed, perform_closed server limit t hquery]

/-! ### Failures of an exchange -/

private theorem send_error_outOfBand (h : (send server t s query).2 = .error e) : e.isInBand = false := by
  rw [send] at h
  cases hstream : s.stream with
  | none =>
    rw [hstream] at h
    cases h
    rfl
  | some stream =>
    simp only [hstream] at h
    split at h
    · cases h
    · cases h
      rfl

private theorem dispatch_error_outOfBand (h : (dispatch server t s query).2 = .error e) :
    e.isInBand = false := by
  rw [dispatch] at h
  cases hphase : s.phase with
  | closed =>
    rw [hphase] at h
    cases h
    rfl
  | unopened =>
    have hopens := beginStream_dispatched server t s query
    simp only [hphase] at h
    rw [h] at hopens
    cases hopens with
    | refused _ => rfl
    | unread _ => rfl
  | ready =>
    rw [hphase] at h
    exact send_error_outOfBand h
  | awaiting =>
    rw [hphase] at h
    exact send_error_outOfBand h

private theorem exchange_inBand {stream : Stream} (h : exchange server limit t stream query = (t', .error e))
    (hband : e.isInBand = true) :
    stream.ended = false ∧ t'.isOver limit = false ∧ t'.waiting = [] ∧
      t'.read.getLast? = some (stream.number, query) := by
  cases hended : stream.ended with
  | true =>
    rw [exchange, if_pos hended] at h
    cases h
    cases hband
  | false =>
    rw [exchange, if_neg (Bool.eq_false_iff.mp hended)] at h
    cases hover : t.isOver limit with
    | true =>
      rw [if_pos hover] at h
      cases h
      cases hband
    | false =>
      rw [if_neg (Bool.eq_false_iff.mp hover)] at h
      rcases hreply : server.reply (drain server t).server stream.number query with ⟨state, reply⟩
      simp only [hreply] at h
      split at h
      · cases h
        cases hband
      · rename_i hlate
        rw [take] at h
        obtain ⟨rfl, -⟩ := Prod.mk.inj h
        exact ⟨rfl, Bool.eq_false_iff.mpr hlate, rfl, List.getLast?_concat⟩

/-- How the failure of an exchange leaves a session: given up, or with the stream on which the error came. -/
inductive Failed (limit : Option Duration) (query : Query) : Trace σ × Session → Error → Prop
  | givenUp (t : Trace σ) {e : Error} (hband : e.isInBand = false) :
      Failed limit query (t, ⟨.closed, none⟩) e
  | inBand {t : Trace σ} {number : Nat} {e : Error} (hband : e.isInBand = true)
      (htime : t.isOver limit = false) (hwaiting : t.waiting = [])
      (hread : t.read.getLast? = some (number, query)) :
      Failed limit query (t, ⟨.ready, some ⟨number, false⟩⟩) e

theorem settle_closed (s : Session) (hband : e.isInBand = false) :
    settle s (.error e) = ⟨.closed, none⟩ := by
  rw [settle, if_neg (Bool.eq_false_iff.mp hband)]
  rfl

private theorem request_failed (h : request server limit t s query = (t', s', .error e)) :
    Failed limit query (t', s') e := by
  have hrequested := request_requested server limit t s query
  rw [h] at hrequested
  cases hrequested with
  | unsent hdispatch =>
    have hband := dispatch_error_outOfBand (congrArg Prod.snd hdispatch)
    rw [settle_closed s hband]
    exact .givenUp _ hband
  | streamless hstream => exact .givenUp t' rfl
  | @exchanged t₁ _ stream _ hexchange =>
    cases hband : e.isInBand with
    | false =>
      rw [settle_closed _ hband]
      exact .givenUp _ hband
    | true =>
      obtain ⟨hended, htime, hwaiting, hread⟩ := exchange_inBand hexchange hband
      have hsettled : settle ⟨.awaiting, some stream⟩ (.error e) =
          ⟨.ready, some ⟨stream.number, false⟩⟩ := by
        rw [settle, if_pos hband, ← hended]
      have hheld : Session.held? ⟨.ready, some ⟨stream.number, false⟩⟩ =
          Session.held? ⟨.awaiting, some stream⟩ := rfl
      rw [hsettled, Trace.letGo_of_held hheld]
      exact .inBand hband htime hwaiting hread

private theorem exchange_reads (server : Server σ) (query : Query) {stream : Stream}
    (hended : stream.ended = false) (htime : t.isOver limit = false) :
    (exchange server limit t stream query).1.read = t.read ++ t.waiting ++ [(stream.number, query)] ∧
      (exchange server limit t stream query).1.streams = t.streams := by
  rw [exchange, if_neg (Bool.eq_false_iff.mp hended), if_neg (Bool.eq_false_iff.mp htime)]
  rcases server.reply (drain server t).server stream.number query with ⟨state, reply⟩
  simp only
  split
  · exact ⟨rfl, rfl⟩
  · exact ⟨rfl, rfl⟩

private theorem isServedOn_ready {number : Nat} (htime : t.isOver limit = false) (hwaiting : t.waiting = []) :
    IsServedOn server limit number (t, ⟨.ready, some ⟨number, false⟩⟩) where
  ready := rfl
  held := rfl
  next hreads query := by
    have hlive : (Stream.mk number false).ended = false := rfl
    have hsent : (t.record [.sent number query]).isOver limit = false := htime
    have hread := exchange_reads server query hlive hsent
    rw [Trace.record_read, Trace.record_waiting, hwaiting, List.append_nil] at hread
    simp only [request, dispatch, send]
    rw [if_pos hreads]
    simp only [conclude, Trace.letGo_read, Trace.letGo_streams]
    exact hread

/-! ### Failures of an operation -/

private theorem errorOf?_eq_some_iff {α : Type} {result : Except Error α} :
    errorOf? result = some e ↔ result = .error e := by
  cases result <;> simp [errorOf?]

private theorem phase_of_request_ok {response : Response}
    (h : request server limit t s query = (t', s', .ok response)) : s'.phase = .ready := by
  have hrequested := request_requested server limit t s query
  rw [h] at hrequested
  cases hrequested with
  | exchanged hexchange => rfl

private theorem readFiles_error_outOfBand {response : Response} (h : readFiles response = .error e) :
    e.isInBand = false := by
  cases response with
  | files files =>
    obtain ⟨reason, rfl⟩ := readFiles_error h
    rfl
  | _ =>
    cases h
    rfl

private theorem perform_failed {x : Trace σ × Session} {operation : Operation}
    (h : (perform server limit x operation).2 = some e) :
    (¬IsMisread server limit x operation ∧ ∃ query, operation.query? = some query ∧
        Failed limit query (perform server limit x operation).1 e) ∨
      (IsMisread server limit x operation ∧ e.isInBand = false ∧
        (perform server limit x operation).1.2.phase = .ready) := by
  cases operation with
  | reopen => cases h
  | close => cases h
  | request query =>
    rcases hrequest : request server limit x.1 x.2 query with ⟨t, s, result⟩
    simp only [perform, hrequest, errorOf?_eq_some_iff] at h ⊢
    refine .inl ⟨fun hmisread => ?_, query, rfl, request_failed (h ▸ hrequest)⟩
    obtain ⟨_, _, _, hoperation, -⟩ := hmisread
    cases hoperation
  | files query =>
    rcases hrequest : request server limit x.1 x.2 query with ⟨t, s, result⟩
    simp only [perform, requestFiles, hrequest, errorOf?_eq_some_iff] at h ⊢
    cases result with
    | error e' =>
      obtain rfl : e' = e := Except.error.inj h
      refine .inl ⟨fun hmisread => ?_, query, rfl, request_failed hrequest⟩
      obtain ⟨other, response, _, hoperation, hresponse, -⟩ := hmisread
      cases hoperation
      rw [hrequest] at hresponse
      cases hresponse
    | ok response =>
      refine .inr ⟨⟨query, response, e, rfl, ?_, h⟩, readFiles_error_outOfBand h,
        phase_of_request_ok hrequest⟩
      rw [hrequest]

/-- After any operations, the failure of the next one gives the session up, or leaves it the stream if the
error came as a response, exactly if it is not the failure to read a response that came. -/
theorem isHandled_iff (server : Server σ) (limit : Option Duration) (t : Trace σ)
    (before : List Operation) (operation : Operation)
    (h : (perform server limit (reached server limit t before) operation).2 = some e) :
    IsHandled server limit operation e
        (perform server limit (reached server limit t before) operation).1 ↔
      ¬IsMisread server limit (reached server limit t before) operation := by
  rcases perform_failed h with ⟨hread, query, hquery, hfailed⟩ | ⟨hmisread, hband, hready⟩
  · refine iff_of_true ?_ hread
    generalize (perform server limit (reached server limit t before) operation).1 = x at hfailed
    cases hfailed with
    | givenUp t hband =>
      refine ⟨fun _ => isGivenUp_closed server limit t, fun hinBand => ?_⟩
      rw [hband] at hinBand
      cases hinBand
    | inBand hband htime hwaiting hlast =>
      refine ⟨fun hout => ?_, fun _ => ⟨_, query, hquery, hlast, isServedOn_ready htime hwaiting⟩⟩
      rw [hband] at hout
      cases hout
  · refine iff_of_false (fun hhandled => ?_) (not_not_intro hmisread)
    have hclosed := (hhandled.closes hband).closed
    rw [hready] at hclosed
    cases hclosed

/-- A server that has no list of its services, fails the stream over every symbol, and hands out a file that
does not decode for every name. -/
def faultyServer : Server Unit where
  opening := fun _ _ => ((), .served)
  reads := fun _ _ => true
  reply := fun _ _ query => ((), match query with
    | .services => ⟨.response (.error StatusCode.unimplemented.number "no list"), ⟨0⟩⟩
    | .symbol _ => ⟨.failed ⟨.unavailable, "gone"⟩, ⟨0⟩⟩
    | .file _ => ⟨.response (.files [[0xFF]]), ⟨0⟩⟩)

/-- A stream that served an error response is let go of when it fails. -/
theorem isHandled_iff_faulty :
    (perform faultyServer none (reached faultyServer none (.start ()) [.request .services])
        (.files (.symbol "s.S"))).2 = some (.streamFailed ⟨.unavailable, "gone"⟩) ∧
      IsHandled faultyServer none (.files (.symbol "s.S")) (.streamFailed ⟨.unavailable, "gone"⟩)
        (reached faultyServer none (.start ()) [.request .services, .files (.symbol "s.S")]) := by
  have hfails : (perform faultyServer none
      (reached faultyServer none (.start ()) [.request .services])
      (.files (.symbol "s.S"))).2 = some (.streamFailed ⟨.unavailable, "gone"⟩) := by
    rfl
  refine ⟨hfails, (isHandled_iff _ _ _ _ _ hfails).mpr fun hmisread => ?_⟩
  obtain ⟨query, response, e, hoperation, hresponse, -⟩ := hmisread
  cases hoperation
  cases hresponse

/-- A file that does not decode leaves the session open, and the next query goes out on its stream. -/
theorem not_isHandled_garbled :
    (perform faultyServer none (reached faultyServer none (.start ()) [])
        (.files (.file "a.proto"))).2 = some (.decode ⟨[], .varint⟩) ∧
      ¬IsHandled faultyServer none (.files (.file "a.proto")) (.decode ⟨[], .varint⟩)
        (reached faultyServer none (.start ()) [.files (.file "a.proto")]) ∧
      (reached faultyServer none (.start ()) [.files (.file "a.proto"), .request .services]).1.read =
        [(1, .file "a.proto"), (1, .services)] := by
  have hdecode : Schema.File.decode [0xFF] = .error ⟨[], .varint⟩ := by cbv
  have hread : readFiles (.files [[0xFF]]) = .error (.decode ⟨[], .varint⟩) := by
    rw [readFiles, List.mapM_cons, hdecode]
    rfl
  refine ⟨errorOf?_eq_some_iff.mpr hread, fun hhandled => ?_, rfl⟩
  have hclosed : Phase.ready = .closed := (hhandled.closes rfl).closed
  cases hclosed

end RpcGateway.Reflection
