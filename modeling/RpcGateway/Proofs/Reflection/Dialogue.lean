import Mathlib.Data.List.Basic
import RpcGateway.Reflection.Session
/-!
# Dialogues

Events on streams in which one query is sent at a time and nothing else happens before what comes back is
received or the stream is let go of. In a dialogue no two queries are ever outstanding on a stream, every query
is followed by one answer or by the end of its stream, and every answer follows its query.
-/
namespace RpcGateway.Reflection

/-- The events between the holding of one stream, or none, and that of another: a stream is opened if none is
held, and a query that is sent is answered or cut off before anything else happens. -/
inductive Dialogue : Option Nat → List Event → Option Nat → Prop
  | done (held : Option Nat) : Dialogue held [] held
  | opened {number : Nat} {events : List Event} {held : Option Nat}
      (rest : Dialogue (some number) events held) : Dialogue none (.opened number :: events) held
  | answered {number : Nat} (query : Query) (outcome : Outcome) {events : List Event} {held : Option Nat}
      (rest : Dialogue (some number) events held) :
      Dialogue (some number) (.sent number query :: .received number outcome :: events) held
  | cut {number : Nat} (query : Query) {events : List Event} {held : Option Nat}
      (rest : Dialogue none events held) :
      Dialogue (some number) (.sent number query :: .closed number :: events) held
  | closed {number : Nat} {events : List Event} {held : Option Nat}
      (rest : Dialogue none events held) : Dialogue (some number) (.closed number :: events) held

theorem Dialogue.append {first middle last : Option Nat} {events later : List Event}
    (h : Dialogue first events middle) (hlater : Dialogue middle later last) :
    Dialogue first (events ++ later) last := by
  induction h with
  | done held => exact hlater
  | opened _ ih => exact .opened (ih hlater)
  | answered query outcome _ ih => exact .answered query outcome (ih hlater)
  | cut query _ ih => exact .cut query (ih hlater)
  | closed _ ih => exact .closed (ih hlater)

/-- How many queries are outstanding on a stream after an event on some stream. -/
def Event.count (number count : Nat) : Event → Nat
  | .opened _ => count
  | .sent other _ => if other = number then count + 1 else count
  | .received other _ => if other = number then count - 1 else count
  | .closed other => if other = number then 0 else count

/-- Whether an event ends the wait for what comes back on a stream: it came, or the stream is let go of. -/
def Event.Ends (number : Nat) (event : Event) : Prop :=
  (∃ outcome, event = .received number outcome) ∨ event = .closed number

/-- How many queries are outstanding on a stream after some events. -/
def outstanding (number : Nat) (events : List Event) : Nat :=
  events.foldl (Event.count number) 0

private theorem outstanding_cons {number : Nat} {event : Event} (h : event.count number 0 = 0)
    (events : List Event) : outstanding number (event :: events) = outstanding number events := by
  rw [outstanding, List.foldl_cons, h, outstanding]

private theorem count_sent_le_one (number other : Nat) (query : Query) :
    (Event.sent other query).count number 0 ≤ 1 := by
  rw [Event.count]
  split
  · exact Nat.le_refl 1
  · exact Nat.zero_le 1

private theorem outstanding_settled (number : Nat) {other : Nat} (query : Query) {event : Event}
    (h : event.Ends other) (events : List Event) :
    outstanding number (.sent other query :: event :: events) = outstanding number events := by
  have hcount : event.count number ((Event.sent other query).count number 0) = 0 := by
    by_cases hsame : other = number
    · rcases h with ⟨outcome, rfl⟩ | rfl
      · simp only [Event.count, if_pos hsame]
      · simp only [Event.count, if_pos hsame]
    · rcases h with ⟨outcome, rfl⟩ | rfl
      · simp only [Event.count, if_neg hsame]
      · simp only [Event.count, if_neg hsame]
  rw [outstanding, List.foldl_cons, List.foldl_cons, hcount, outstanding]

theorem Dialogue.outstanding_eq_zero {first last : Option Nat} {events : List Event}
    (h : Dialogue first events last) (number : Nat) : outstanding number events = 0 := by
  induction h with
  | done held => rfl
  | opened _ ih => rwa [outstanding_cons rfl]
  | answered query outcome _ ih => rwa [outstanding_settled number query (.inl ⟨outcome, rfl⟩)]
  | cut query _ ih => rwa [outstanding_settled number query (.inr rfl)]
  | closed _ ih => rwa [outstanding_cons (by rw [Event.count, ite_self])]

private theorem outstanding_prefix_settled {number other : Nat} {query : Query} {event : Event}
    (h : event.Ends other) {events before : List Event}
    (ih : ∀ {before : List Event}, before <+: events → outstanding number before ≤ 1)
    (hbefore : before <+: .sent other query :: event :: events) : outstanding number before ≤ 1 := by
  rcases List.prefix_cons_iff.mp hbefore with rfl | ⟨answered, rfl, hanswered⟩
  · exact Nat.zero_le 1
  -- The query alone is outstanding; with what comes after it, nothing is.
  rcases List.prefix_cons_iff.mp hanswered with rfl | ⟨before, rfl, hrest⟩
  · exact count_sent_le_one number other query
  · rw [outstanding_settled number query h]
    exact ih hrest

/-- At no time of a dialogue are two queries outstanding on one stream. -/
theorem Dialogue.outstanding_le_one {first last : Option Nat} {events before : List Event}
    (h : Dialogue first events last) (number : Nat) (hbefore : before <+: events) :
    outstanding number before ≤ 1 := by
  induction h generalizing before with
  | done held =>
    rw [List.prefix_nil.mp hbefore]
    exact Nat.zero_le 1
  | opened _ ih =>
    rcases List.prefix_cons_iff.mp hbefore with rfl | ⟨before, rfl, hrest⟩
    · exact Nat.zero_le 1
    · rw [outstanding_cons rfl]
      exact ih hrest
  | answered query outcome _ ih => exact outstanding_prefix_settled (.inl ⟨outcome, rfl⟩) ih hbefore
  | cut query _ ih => exact outstanding_prefix_settled (.inr rfl) ih hbefore
  | closed _ ih =>
    rcases List.prefix_cons_iff.mp hbefore with rfl | ⟨before, rfl, hrest⟩
    · exact Nat.zero_le 1
    · rw [outstanding_cons (by rw [Event.count, ite_self])]
      exact ih hrest

theorem Dialogue.next_of_sent {first last : Option Nat} {events before after : List Event} {number : Nat}
    {query : Query} (h : Dialogue first events last)
    (hevents : events = before ++ .sent number query :: after) :
    ∃ event, after.head? = some event ∧ event.Ends number := by
  induction h generalizing before with
  | done held => cases before <;> cases hevents
  | opened _ ih =>
    cases before with
    | nil => cases hevents
    | cons event before => exact ih (List.cons.inj hevents).2
  | closed _ ih =>
    cases before with
    | nil => cases hevents
    | cons event before => exact ih (List.cons.inj hevents).2
  | answered query outcome _ ih =>
    rcases before with _ | ⟨event, _ | ⟨next, before⟩⟩
    · cases hevents
      exact ⟨_, rfl, .inl ⟨outcome, rfl⟩⟩
    · cases hevents
    · exact ih (List.cons.inj (List.cons.inj hevents).2).2
  | cut query _ ih =>
    rcases before with _ | ⟨event, _ | ⟨next, before⟩⟩
    · cases hevents
      exact ⟨_, rfl, .inr rfl⟩
    · cases hevents
    · exact ih (List.cons.inj (List.cons.inj hevents).2).2

theorem Dialogue.last_of_received {first last : Option Nat} {events before after : List Event}
    {number : Nat} {outcome : Outcome} (h : Dialogue first events last)
    (hevents : events = before ++ .received number outcome :: after) :
    ∃ query, before.getLast? = some (.sent number query) := by
  induction h generalizing before with
  | done held => cases before <;> cases hevents
  | opened _ ih =>
    cases before with
    | nil => cases hevents
    | cons event before =>
      obtain ⟨query, hlast⟩ := ih (List.cons.inj hevents).2
      exact ⟨query, List.mem_getLast?_cons hlast⟩
  | closed _ ih =>
    cases before with
    | nil => cases hevents
    | cons event before =>
      obtain ⟨query, hlast⟩ := ih (List.cons.inj hevents).2
      exact ⟨query, List.mem_getLast?_cons hlast⟩
  | answered query outcome _ ih =>
    rcases before with _ | ⟨event, _ | ⟨next, before⟩⟩
    · cases hevents
    · cases hevents
      exact ⟨query, rfl⟩
    · obtain ⟨query, hlast⟩ := ih (List.cons.inj (List.cons.inj hevents).2).2
      exact ⟨query, List.mem_getLast?_cons (List.mem_getLast?_cons hlast)⟩
  | cut query _ ih =>
    rcases before with _ | ⟨event, _ | ⟨next, before⟩⟩
    · cases hevents
    · cases hevents
    · obtain ⟨query, hlast⟩ := ih (List.cons.inj (List.cons.inj hevents).2).2
      exact ⟨query, List.mem_getLast?_cons (List.mem_getLast?_cons hlast)⟩

end RpcGateway.Reflection
