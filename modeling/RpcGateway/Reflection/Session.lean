import RpcGateway.Reflection.Error
import RpcGateway.Schema.Codec
/-!
# Reflection sessions

A session asks one query after the other over one stream, which it opens with the first query. An error
that comes as a response leaves the stream open; every other failure closes the session, and only
reopening it lets the next query open a stream again.
-/
namespace RpcGateway.Reflection

inductive Phase where
  | unopened
  | ready
  | awaiting
  | closed
  deriving DecidableEq, Repr

/-- A stream by its number; a stream may have ended before it was used. -/
structure Stream where
  number : Nat
  ended : Bool
  deriving DecidableEq, Repr

/-- A session, and the stream it holds. -/
structure Session where
  phase : Phase
  stream : Option Stream
  deriving DecidableEq, Repr

namespace Session

/-- A session that has not asked anything. -/
def new : Session := ⟨.unopened, none⟩

/-- The number of the stream that a session holds. -/
def held? (s : Session) : Option Nat :=
  s.stream.map Stream.number

/-- Lets go of the stream for good. -/
def close (_ : Session) : Session := ⟨.closed, none⟩

/-- Lets the next query open a stream if the session is closed. -/
def reopen (s : Session) : Session :=
  if s.phase = .closed then ⟨.unopened, none⟩ else s

end Session

/-- What a session does to the stream of a number, and what comes back on it. -/
inductive Event where
  | opened (number : Nat)
  | sent (number : Nat) (query : Query)
  | received (number : Nat) (outcome : Outcome)
  | closed (number : Nat)
  deriving DecidableEq, Repr

/-- What has happened so far: the state of the server, how many streams were opened, the queries that the
server read with their streams, those that wait to be read, the time that went by, and what sessions did to
their streams. -/
structure Trace (σ : Type) where
  server : σ
  streams : Nat
  read : List (Nat × Query)
  waiting : List (Nat × Query)
  elapsed : Duration
  events : List Event

variable {σ : Type}

namespace Trace

def start (server : σ) : Trace σ := ⟨server, 0, [], [], ⟨0⟩, []⟩

def restart (t : Trace σ) : Trace σ := { t with elapsed := ⟨0⟩ }

/-- Whether the time of a limit is over. -/
def isOver (t : Trace σ) : Option Duration → Bool
  | none => false
  | some limit => limit.nanoseconds ≤ t.elapsed.nanoseconds

def record (t : Trace σ) (events : List Event) : Trace σ :=
  { t with events := t.events ++ events }

@[simp] theorem record_server (t : Trace σ) (events : List Event) : (t.record events).server = t.server := rfl
@[simp] theorem record_streams (t : Trace σ) (events : List Event) : (t.record events).streams = t.streams := rfl
@[simp] theorem record_read (t : Trace σ) (events : List Event) : (t.record events).read = t.read := rfl
@[simp] theorem record_waiting (t : Trace σ) (events : List Event) : (t.record events).waiting = t.waiting := rfl
@[simp] theorem record_elapsed (t : Trace σ) (events : List Event) : (t.record events).elapsed = t.elapsed := rfl

/-- Records that a session lets go of its stream if it does not hold it any more. -/
def letGo (t : Trace σ) (s after : Session) : Trace σ :=
  if after.held? = s.held? then t else t.record (s.held?.toList.map .closed)

theorem letGo_of_held {s after : Session} (h : after.held? = s.held?) (t : Trace σ) : t.letGo s after = t :=
  if_pos h

@[simp] theorem letGo_streams (t : Trace σ) (s after : Session) : (t.letGo s after).streams = t.streams := by
  rw [letGo]
  split <;> rfl

@[simp] theorem letGo_read (t : Trace σ) (s after : Session) : (t.letGo s after).read = t.read := by
  rw [letGo]
  split <;> rfl

@[simp] theorem letGo_waiting (t : Trace σ) (s after : Session) : (t.letGo s after).waiting = t.waiting := by
  rw [letGo]
  split <;> rfl

@[simp] theorem letGo_elapsed (t : Trace σ) (s after : Session) : (t.letGo s after).elapsed = t.elapsed := by
  rw [letGo]
  split <;> rfl

/-- The end of a session, with whatever stream it holds. -/
def leave (t : Trace σ) (s : Session) : Trace σ :=
  t.letGo s s.close

end Trace

/-- Lets the server read what waits to be read; the replies are lost. -/
def drain (server : Server σ) (t : Trace σ) : Trace σ :=
  { t with
    server := t.waiting.foldl (fun state (stream, query) => (server.reply state stream query).1) t.server
    read := t.read ++ t.waiting
    waiting := [] }

/-- What an outcome means to the session. -/
def receive : Outcome → Except Error Response
  | .finished => .error .streamEnded
  | .failed status => .error (.streamFailed status)
  | .response (.error code message) => .error (.server code message)
  | .response .empty => .error (.unexpected Response.empty.text)
  | .response response => .ok response

/-- Takes what comes back on a stream. -/
def take (t : Trace σ) (stream : Stream) (outcome : Outcome) : Trace σ × Except Error Response :=
  (t.record [.received stream.number outcome], receive outcome)

/-- Lets the server read a query and waits for the reply. No query is read and no reply taken when the time
is over. -/
def exchange (server : Server σ) (limit : Option Duration) (t : Trace σ) (stream : Stream)
    (query : Query) : Trace σ × Except Error Response :=
  if stream.ended then take t stream .finished
  else if t.isOver limit then
    ({ t with waiting := t.waiting ++ [(stream.number, query)] },
      .error (.timeout (limit.getD ⟨0⟩)))
  else
    let t := drain server t
    let (state, reply) := server.reply t.server stream.number query
    let t := { t with
      server := state
      read := t.read ++ [(stream.number, query)]
      elapsed := ⟨t.elapsed.nanoseconds + reply.delay.nanoseconds⟩ }
    if t.isOver limit then (t, .error (.timeout (limit.getD ⟨0⟩))) else take t stream reply.outcome

/-- Opens a stream with its first query. A stream that is refused is let go of. -/
def beginStream (server : Server σ) (t : Trace σ) (s : Session) (query : Query) :
    Trace σ × Except Error Session :=
  let number := t.streams + 1
  let (state, opening) := server.opening t.server query
  let t := { t with server := state, streams := number }.record [.opened number, .sent number query]
  match opening with
  | .refused status => (t.record [.closed number], .error (.openFailed status))
  | .served => (t, .ok { s with phase := .ready, stream := some ⟨number, false⟩ })
  | .ended => (t, .ok { s with phase := .ready, stream := some ⟨number, true⟩ })

/-- Sends a query on the stream that a session holds. -/
def send (server : Server σ) (t : Trace σ) (s : Session) (query : Query) :
    Trace σ × Except Error Session :=
  match s.stream with
  | none => (t, .error .streamEnded)
  | some stream =>
    if server.reads t.server stream.number then (t.record [.sent stream.number query], .ok s)
    else (t, .error .notSent)

/-- Sends a query as the phase of the session demands. -/
def dispatch (server : Server σ) (t : Trace σ) (s : Session) (query : Query) :
    Trace σ × Except Error Session :=
  match s.phase with
  | .closed => (t, .error .streamEnded)
  | .unopened => beginStream server t s query
  | .ready => send server t s query
  | .awaiting => send server t s query

/-- The session after the result of a query. -/
def settle (s : Session) : Except Error Response → Session
  | .ok _ => { s with phase := .ready }
  | .error e => if e.isInBand then { s with phase := .ready } else s.close

/-- Ends a query with its result. -/
def conclude (t : Trace σ) (s : Session) (result : Except Error Response) :
    Trace σ × Session × Except Error Response :=
  (t.letGo s (settle s result), settle s result, result)

def request (server : Server σ) (limit : Option Duration) (t : Trace σ) (s : Session)
    (query : Query) : Trace σ × Session × Except Error Response :=
  match dispatch server t s query with
  | (t, .error e) => conclude t s (.error e)
  | (t, .ok s) =>
    let s := { s with phase := .awaiting }
    match s.stream with
    | none => conclude t s (.error .streamEnded)
    | some stream =>
      let (t, result) := exchange server limit t stream query
      conclude t s result

/-- Reads the files of a response; a response of another kind was not expected. -/
def readFiles : Response → Except Error (List Schema.File)
  | .files files => files.mapM fun file => (Schema.File.decode file).mapError .decode
  | response => .error (.unexpected response.text)

def requestFiles (server : Server σ) (limit : Option Duration) (t : Trace σ) (s : Session)
    (query : Query) : Trace σ × Session × Except Error (List Schema.File) :=
  let (t, s, result) := request server limit t s query
  (t, s, result.bind readFiles)

end RpcGateway.Reflection
