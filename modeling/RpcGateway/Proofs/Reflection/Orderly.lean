import RpcGateway.Proofs.Reflection.Closing
import RpcGateway.Proofs.Reflection.Dialogue
/-!
# Sessions keep to their protocol

What sessions do to their streams while they are used in any order, from one operation to the next. Between
two operations a session waits for nothing, and it holds a stream exactly if it is ready for a query. The
events that its operations leave in the trace are a dialogue.
-/
namespace RpcGateway.Reflection

def Event.opened? : Event → Option Nat
  | .opened number => some number
  | _ => none

def Event.sent? : Event → Option (Nat × Query)
  | .sent number query => some (number, query)
  | _ => none

variable {σ : Type}

/-- The events since an earlier trace. -/
def Trace.since (t' t : Trace σ) : List Event :=
  t'.events.drop t.events.length

/-- Letting go of the stream that a session holds. -/
def Session.closing (s : Session) : List Event :=
  s.held?.toList.map .closed

variable {server : Server σ} {limit : Option Duration} {t t' : Trace σ} {s s' : Session}
  {query : Query} {e : Error}

/-! ### What is added to a trace -/

/-- A trace grows by events and by queries that the server reads or will read. The streams that are opened
have the next numbers. -/
structure Grows (t : Trace σ) (events : List Event) (queries : List (Nat × Query)) (t' : Trace σ) :
    Prop where
  added : t'.events = t.events ++ events
  streams : ∃ count, t'.streams = t.streams + count ∧
    events.filterMap Event.opened? = List.range' (t.streams + 1) count
  read : t'.read ++ t'.waiting = t.read ++ t.waiting ++ queries

private theorem Grows.append {t t₁ t₂ : Trace σ} {events later : List Event}
    {queries more : List (Nat × Query)} (h : Grows t events queries t₁)
    (hlater : Grows t₁ later more t₂) :
    Grows t (events ++ later) (queries ++ more) t₂ := by
  obtain ⟨hevents, ⟨count, hstreams, hopened⟩, hread⟩ := h
  obtain ⟨hevents', ⟨count', hstreams', hopened'⟩, hread'⟩ := hlater
  refine ⟨?_, ⟨count + count', ?_, ?_⟩, ?_⟩
  · rw [hevents', hevents, List.append_assoc]
  · rw [hstreams', hstreams, Nat.add_assoc]
  · rw [List.filterMap_append, hopened, hopened', hstreams, Nat.add_right_comm, List.range'_append_1]
  · rw [hread', hread, List.append_assoc]

private theorem Grows.refl (t : Trace σ) : Grows t [] [] t where
  added := (List.append_nil _).symm
  streams := ⟨0, rfl, rfl⟩
  read := (List.append_nil _).symm

private theorem grows_record (t : Trace σ) (events : List Event)
    (hopened : events.filterMap Event.opened? = []) : Grows t events [] (t.record events) where
  added := rfl
  streams := ⟨0, rfl, hopened⟩
  read := (List.append_nil _).symm

private theorem opened_closing (s : Session) : s.closing.filterMap Event.opened? = [] := by
  rw [Session.closing]
  cases s.held? <;> rfl

private theorem grows_letGo (t : Trace σ) (s : Session) :
    Grows t s.closing [] (t.letGo s ⟨.closed, none⟩) := by
  have hopened := opened_closing s
  rw [Trace.letGo, ← Session.closing]
  split
  · rename_i hheld
    rw [Session.closing, ← hheld]
    exact Grows.refl t
  · exact grows_record t _ hopened

/-- A trace tells some events: they are added to it, and the queries that the server reads or will read since
are among those that were sent. -/
def Tells (t : Trace σ) (events : List Event) (t' : Trace σ) : Prop :=
  ∃ queries : List (Nat × Query), queries.Sublist (events.filterMap Event.sent?) ∧ Grows t events queries t'

private theorem Tells.append {t t₁ t₂ : Trace σ} {events later : List Event} (h : Tells t events t₁)
    (hlater : Tells t₁ later t₂) : Tells t (events ++ later) t₂ := by
  obtain ⟨queries, hqueries, hgrows⟩ := h
  obtain ⟨more, hmore, hgrows'⟩ := hlater
  refine ⟨queries ++ more, ?_, hgrows.append hgrows'⟩
  rw [List.filterMap_append]
  exact hqueries.append hmore

private theorem Grows.tells {events : List Event} (h : Grows t events [] t') : Tells t events t' :=
  ⟨[], List.nil_sublist _, h⟩

private theorem Tells.since_eq {events : List Event} (h : Tells t events t') : t'.since t = events := by
  obtain ⟨queries, -, hgrows⟩ := h
  rw [Trace.since, hgrows.added, List.drop_left]

/-! ### Settled sessions -/

/-- A session as it is between operations: it waits for nothing, and it holds a stream exactly if it is
ready. -/
structure Session.IsSettled (s : Session) : Prop where
  phase : s.phase ≠ .awaiting
  held : s.stream.isSome = true ↔ s.phase = .ready

private theorem isSettled_new : Session.new.IsSettled where
  phase := by decide
  held := by decide

private theorem isSettled_closed : Session.IsSettled ⟨.closed, none⟩ where
  phase := by decide
  held := by decide

private theorem isSettled_ready (stream : Stream) : Session.IsSettled ⟨.ready, some stream⟩ where
  phase := Phase.noConfusion
  held := iff_of_true rfl rfl

theorem Session.IsSettled.cases (h : s.IsSettled) :
    s = .new ∨ s = ⟨.closed, none⟩ ∨ ∃ stream, s = ⟨.ready, some stream⟩ := by
  obtain ⟨hphase, hheld⟩ := h
  rcases s with ⟨phase, _ | stream⟩
  · cases phase with
    | unopened => exact .inl rfl
    | ready => cases hheld.mpr rfl
    | awaiting => exact absurd rfl hphase
    | closed => exact .inr (.inl rfl)
  · obtain rfl : phase = .ready := hheld.mp rfl
    exact .inr (.inr ⟨stream, rfl⟩)

/-! ### One query -/

/-- A stream is opened only by a session that has opened none since it was new or reopened. -/
def OpensFrom (s : Session) (events : List Event) : Prop :=
  ∀ number, .opened number ∈ events → s.phase = .unopened

/-- How a settled session takes a query: it goes out on a stream that it holds by then, or the session has to
be closed. -/
inductive Taken (t : Trace σ) (s : Session) (query : Query) : Trace σ × Except Error Session → Prop
  | out {t₁ : Trace σ} {s₁ : Session} (stream : Stream) (before : List Event)
      (hstream : s₁.stream = some stream) (hbefore : Dialogue s.held? before (some stream.number))
      (hopens : OpensFrom s before) (hgrows : Grows t (before ++ [.sent stream.number query]) [] t₁) :
      Taken t s query (t₁, .ok s₁)
  | back {t₁ : Trace σ} {e : Error} (events : List Event) (hband : e.isInBand = false)
      (hevents : Dialogue s.held? (events ++ s.closing) none) (hopens : OpensFrom s events)
      (hgrows : Grows t events [] t₁) : Taken t s query (t₁, .error e)

private theorem beginStream_taken (server : Server σ) (t : Trace σ) (query : Query) :
    Taken t .new query (beginStream server t .new query) := by
  rw [beginStream]
  rcases server.opening t.server query with ⟨state, opening⟩
  have hopening : Dialogue Session.new.held? [.opened (t.streams + 1)] (some (t.streams + 1)) :=
    .opened (.done _)
  have hfrom : ∀ events : List Event, OpensFrom .new events := fun _ _ _ => rfl
  have hgrows : Grows t ([.opened (t.streams + 1)] ++ [.sent (t.streams + 1) query]) []
      ({ t with server := state, streams := t.streams + 1 }.record
        [.opened (t.streams + 1), .sent (t.streams + 1) query]) :=
    ⟨rfl, ⟨1, rfl, rfl⟩, (List.append_nil _).symm⟩
  cases opening with
  | refused status =>
    have hcut : Dialogue none [.opened (t.streams + 1), .sent (t.streams + 1) query,
        .closed (t.streams + 1)] none := .opened (.cut query (.done none))
    exact .back [.opened (t.streams + 1), .sent (t.streams + 1) query, .closed (t.streams + 1)] rfl hcut
      (hfrom _) (hgrows.append (grows_record _ [.closed (t.streams + 1)] rfl))
  | served => exact .out ⟨t.streams + 1, false⟩ _ rfl hopening (hfrom _) hgrows
  | ended => exact .out ⟨t.streams + 1, true⟩ _ rfl hopening (hfrom _) hgrows

private theorem opensFrom_nil (s : Session) : OpensFrom s [] := by
  intro number hopened
  cases hopened

private theorem send_taken (server : Server σ) (t : Trace σ) (stream : Stream) (query : Query) :
    Taken t ⟨.ready, some stream⟩ query (send server t ⟨.ready, some stream⟩ query) := by
  simp only [send]
  split
  · exact .out stream [] rfl (.done _) (opensFrom_nil _) (grows_record t _ rfl)
  · exact .back [] rfl (.closed (.done none)) (opensFrom_nil _) (Grows.refl t)

private theorem dispatch_taken (server : Server σ) (t : Trace σ) (hs : s.IsSettled) (query : Query) :
    Taken t s query (dispatch server t s query) := by
  rcases hs.cases with rfl | rfl | ⟨stream, rfl⟩
  · exact beginStream_taken server t query
  · exact .back [] rfl (.done none) (opensFrom_nil _) (Grows.refl t)
  · exact send_taken server t stream query

/-- What comes of waiting on a stream for the answer to a query: something is received, and it is what the
query results in, or the time is over before. The query itself, if any, is read or waits to be read. -/
inductive Waited (t : Trace σ) (stream : Stream) (query : Query) :
    Trace σ × Except Error Response → Prop
  | came {t₁ : Trace σ} (outcome : Outcome) {queries : List (Nat × Query)}
      (hqueries : queries.Sublist [(stream.number, query)])
      (hgrows : Grows t [.received stream.number outcome] queries t₁) :
      Waited t stream query (t₁, receive outcome)
  | late {t₁ : Trace σ} (d : Duration) {queries : List (Nat × Query)}
      (hqueries : queries.Sublist [(stream.number, query)]) (hgrows : Grows t [] queries t₁) :
      Waited t stream query (t₁, .error (.timeout d))

private theorem exchange_waited (server : Server σ) (limit : Option Duration) (t : Trace σ) (stream : Stream)
    (query : Query) : Waited t stream query (exchange server limit t stream query) := by
  rw [exchange]
  by_cases hended : stream.ended = true
  · rw [if_pos hended]
    exact .came .finished (List.nil_sublist _) (grows_record t _ rfl)
  · rw [if_neg hended]
    by_cases hover : t.isOver limit = true
    · rw [if_pos hover]
      exact .late _ (List.Sublist.refl _)
        ⟨(List.append_nil _).symm, ⟨0, rfl, rfl⟩, (List.append_assoc ..).symm⟩
    · rw [if_neg hover]
      have hread := List.append_nil (t.read ++ t.waiting ++ [(stream.number, query)])
      simp only
      split
      · exact .late _ (List.Sublist.refl _) ⟨(List.append_nil _).symm, ⟨0, rfl, rfl⟩, hread⟩
      · rw [take]
        exact .came _ (List.Sublist.refl _) ⟨rfl, ⟨0, rfl, rfl⟩, hread⟩

private theorem settle_eq (stream : Stream) (result : Except Error Response) :
    settle ⟨.awaiting, some stream⟩ result = ⟨.ready, some stream⟩ ∨
      settle ⟨.awaiting, some stream⟩ result = ⟨.closed, none⟩ := by
  cases result with
  | ok response => exact .inl rfl
  | error e =>
    cases hband : e.isInBand with
    | true =>
      left
      rw [settle, if_pos hband]
    | false => exact .inr (settle_closed _ hband)

/-- What an operation leads to: a settled session, in a dialogue that its trace tells. -/
structure Leads (x : Trace σ × Session) (events : List Event) (x' : Trace σ × Session) : Prop where
  settled : x'.2.IsSettled
  dialogue : Dialogue x.2.held? events x'.2.held?
  tells : Tells x.1 events x'.1

private theorem tells_of_sent {t₁ t₂ : Trace σ} {number : Nat} {before tail : List Event}
    {queries : List (Nat × Query)} (hsent : Grows t (before ++ [.sent number query]) [] t₁)
    (hqueries : queries.Sublist [(number, query)]) (htail : Grows t₁ tail queries t₂) :
    Tells t (before ++ .sent number query :: tail) t₂ := by
  refine ⟨queries, ?_, ?_⟩
  · have hmem : .sent number query ∈ before ++ .sent number query :: tail :=
      List.mem_append_right before List.mem_cons_self
    exact hqueries.trans (List.singleton_sublist.mpr (List.mem_filterMap.mpr ⟨_, hmem, rfl⟩))
  · have hboth := hsent.append htail
    rwa [List.append_assoc, List.nil_append, List.singleton_append] at hboth

theorem OpensFrom.sent {before tail : List Event} {number : Nat} (h : OpensFrom s before)
    (htail : ∀ number, .opened number ∉ tail) : OpensFrom s (before ++ .sent number query :: tail) := by
  intro other hopened
  rcases List.mem_append.mp hopened with hbefore | hafter
  · exact h other hbefore
  · rcases List.mem_cons.mp hafter with hsent | hlater
    · cases hsent
    · exact absurd hlater (htail other)

private theorem request_leads (server : Server σ) (limit : Option Duration) (t : Trace σ) (hs : s.IsSettled)
    (query : Query) :
    ∃ events, OpensFrom s events ∧ Leads (t, s) events
      ((request server limit t s query).1, (request server limit t s query).2.1) := by
  have htaken := dispatch_taken server t hs query
  rw [request]
  rcases hdispatch : dispatch server t s query with ⟨t₁, e | s₁⟩
  · rw [hdispatch] at htaken
    cases htaken with
    | back events hband hevents hopens hgrows =>
      simp only [conclude, settle_closed s hband]
      refine ⟨events ++ s.closing, ?_, isSettled_closed, hevents, (hgrows.append (grows_letGo t₁ s)).tells⟩
      intro number hopened
      rcases List.mem_append.mp hopened with hbefore | hclosing
      · exact hopens number hbefore
      · obtain ⟨_, -, hclosed⟩ := List.mem_map.mp hclosing
        cases hclosed
  · rw [hdispatch] at htaken
    cases htaken with
    | out stream before hstream hbefore hopens hgrows =>
      simp only [hstream, conclude]
      have hwaited := exchange_waited server limit t₁ stream query
      generalize exchange server limit t₁ stream query = ending at hwaited ⊢
      cases hwaited with
      | @came t₂ outcome queries hqueries hreceived =>
        rcases settle_eq stream (receive outcome) with hsettle | hsettle
        · have hheld : Session.held? ⟨.ready, some stream⟩ = Session.held? ⟨.awaiting, some stream⟩ := rfl
          rw [hsettle, Trace.letGo_of_held hheld]
          exact ⟨_, hopens.sent (by simp), isSettled_ready stream,
            hbefore.append (.answered query outcome (.done _)), tells_of_sent hgrows hqueries hreceived⟩
        · have hclosing := hreceived.append (grows_letGo t₂ ⟨.awaiting, some stream⟩)
          rw [List.append_nil] at hclosing
          rw [hsettle]
          exact ⟨_, hopens.sent (by simp), isSettled_closed,
            hbefore.append (.answered query outcome (.closed (.done _))),
            tells_of_sent hgrows hqueries hclosing⟩
      | @late t₂ d queries hqueries hsilent =>
        have hclosing := hsilent.append (grows_letGo t₂ ⟨.awaiting, some stream⟩)
        rw [List.append_nil] at hclosing
        rw [settle_closed _ rfl]
        exact ⟨_, hopens.sent (by simp), isSettled_closed,
          hbefore.append (.cut query (.done _)), tells_of_sent hgrows hqueries hclosing⟩

/-! ### Any operations -/

private theorem perform_leads (server : Server σ) (limit : Option Duration) {x : Trace σ × Session}
    (hx : x.2.IsSettled) (operation : Operation) :
    ∃ events, OpensFrom x.2 events ∧ Leads x events (perform server limit x operation).1 := by
  obtain ⟨t, s⟩ := x
  cases operation with
  | request query => exact request_leads server limit t hx query
  | files query => exact request_leads server limit t hx query
  | reopen =>
    refine ⟨[], opensFrom_nil s, ?_⟩
    rcases hx.cases with rfl | rfl | ⟨stream, rfl⟩
    · exact ⟨isSettled_new, .done _, (Grows.refl t).tells⟩
    · exact ⟨isSettled_new, .done _, (Grows.refl t).tells⟩
    · have hsame : t.letGo ⟨.ready, some stream⟩ ⟨.ready, some stream⟩ = t := Trace.letGo_of_held rfl t
      have htells : Tells t [] (t.letGo ⟨.ready, some stream⟩ ⟨.ready, some stream⟩) :=
        hsame.symm ▸ (Grows.refl t).tells
      exact ⟨isSettled_ready stream, .done _, htells⟩
  | close =>
    refine ⟨s.closing, ?_, isSettled_closed, ?_, (grows_letGo t s).tells⟩
    · intro number hopened
      obtain ⟨_, -, hclosed⟩ := List.mem_map.mp hopened
      cases hclosed
    · rcases hx.cases with rfl | rfl | ⟨stream, rfl⟩
      · exact .done _
      · exact .done _
      · exact .closed (.done _)

/-- Any operations lead from a settled session to a settled one, by induction on the operations. -/
private theorem performAll_leads (server : Server σ) (limit : Option Duration) {x : Trace σ × Session}
    (hx : x.2.IsSettled) (operations : List Operation) :
    ∃ events, Leads x events (performAll server limit x operations) := by
  induction operations generalizing x with
  | nil => exact ⟨[], hx, .done _, (Grows.refl x.1).tells⟩
  | cons operation rest ih =>
    obtain ⟨events, -, hfirst⟩ := perform_leads server limit hx operation
    obtain ⟨later, hrest⟩ := ih hfirst.settled
    exact ⟨events ++ later, hrest.settled, hfirst.dialogue.append hrest.dialogue,
      hfirst.tells.append hrest.tells⟩

/-! ### Whole sessions -/

/-- Whether a session finds no stream for a query, when it sends it or when it waits for what comes back. -/
def MissesStream (server : Server σ) (t : Trace σ) (s : Session) (query : Query) : Prop :=
  ((s.phase = .ready ∨ s.phase = .awaiting) ∧ s.stream = none) ∨
    ∃ t₁ s₁, dispatch server t s query = (t₁, .ok s₁) ∧ s₁.stream = none

private theorem not_missesStream (server : Server σ) (t : Trace σ) (hs : s.IsSettled) (query : Query) :
    ¬MissesStream server t s query := by
  rintro (⟨hphase, hstream⟩ | ⟨t₁, s₁, hdispatch, hstream⟩)
  · have hready : s.phase = .ready := hphase.resolve_right hs.phase
    have hheld := hs.held.mpr hready
    rw [hstream] at hheld
    cases hheld
  · have htaken := dispatch_taken server t hs query
    rw [hdispatch] at htaken
    cases htaken with
    | out stream before hheld =>
      rw [hstream] at hheld
      cases hheld

/-- A session that keeps to its protocol through some operations. After them it is settled; the events since
are a dialogue, which ends with the stream that it holds and which the trace tells; no two queries were ever
outstanding on a stream and none is left; a query was followed by one answer or by the end of its stream; the
next operation opens a stream only if the session is unopened; and no query misses a stream. -/
structure IsOrderly (server : Server σ) (limit : Option Duration) (t : Trace σ)
    (operations : List Operation) : Prop where
  settled : (reached server limit t operations).2.IsSettled
  dialogue : Dialogue none ((reached server limit t operations).1.since t)
    (reached server limit t operations).2.held?
  tells : Tells t ((reached server limit t operations).1.since t) (reached server limit t operations).1
  single : ∀ number before, before <+: (reached server limit t operations).1.since t →
    outstanding number before ≤ 1
  complete : ∀ number, outstanding number ((reached server limit t operations).1.since t) = 0
  answered : ∀ before number query after,
    (reached server limit t operations).1.since t = before ++ .sent number query :: after →
      ∃ event, after.head? = some event ∧ event.Ends number
  asked : ∀ before number outcome after,
    (reached server limit t operations).1.since t = before ++ .received number outcome :: after →
      ∃ query, before.getLast? = some (.sent number query)
  opens : ∀ operation number,
    .opened number ∈ (perform server limit (reached server limit t operations) operation).1.1.since
        (reached server limit t operations).1 →
      (reached server limit t operations).2.phase = .unopened
  served : ∀ query, ¬MissesStream server (reached server limit t operations).1
    (reached server limit t operations).2 query

/-- A new session keeps to its protocol whatever is done with it and whatever the server does. -/
theorem isOrderly_reached (server : Server σ) (limit : Option Duration) (t : Trace σ)
    (operations : List Operation) : IsOrderly server limit t operations := by
  obtain ⟨events, hleads⟩ : ∃ events, Leads (t, .new) events (reached server limit t operations) :=
    performAll_leads server limit isSettled_new operations
  have hsince := hleads.tells.since_eq
  obtain ⟨hsettled, hdialogue, htells⟩ := hleads
  rw [← hsince] at hdialogue htells
  exact {
    settled := hsettled
    dialogue := hdialogue
    tells := htells
    single := fun number _ hbefore => hdialogue.outstanding_le_one number hbefore
    complete := hdialogue.outstanding_eq_zero
    answered := fun _ _ _ _ hevents => hdialogue.next_of_sent hevents
    asked := fun _ _ _ _ hevents => hdialogue.last_of_received hevents
    opens := by
      intro operation number hopened
      obtain ⟨later, hfrom, hnext⟩ := perform_leads server limit hsettled operation
      rw [hnext.tells.since_eq] at hopened
      exact hfrom number hopened
    served := not_missesStream server _ hsettled }

/-- A stream that ends is let go of, and the first query after reopening opens the next one. -/
example (query : Query) :
    (reached ⟨fun _ _ => ((), .served), fun _ _ => true, fun _ _ _ => ((), ⟨.finished, ⟨0⟩⟩)⟩ none
        (.start ()) [.request query, .files query, .reopen, .files query]).1.events =
      [.opened 1, .sent 1 query, .received 1 .finished, .closed 1,
        .opened 2, .sent 2 query, .received 2 .finished, .closed 2] :=
  rfl

end RpcGateway.Reflection
