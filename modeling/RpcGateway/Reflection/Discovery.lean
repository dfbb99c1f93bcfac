import RpcGateway.Reflection.Session
import RpcGateway.Schema.Closure
/-!
# Discovery

Finds the services of a server and all schema files that describe them. Files that define the services are
asked for first; then the imports of every file received, in the order in which they came up, each name at
most once. A file of the standard library that the server lacks is noted and left out.
-/
namespace RpcGateway.Reflection

/-- The progress of a discovery: the files so far, the names that were queued, and those still in the
queue. -/
structure Walk where
  closure : Schema.Closure
  queued : List String
  queue : List String
  deriving DecidableEq

namespace Walk

def start : Walk := ⟨.empty, [], []⟩

/-- Queues an import unless its file is there or it was queued before. -/
def enqueue (w : Walk) (name : String) : Walk :=
  if w.closure.contains name || w.queued.contains name then w
  else { w with queued := w.queued ++ [name], queue := w.queue ++ [name] }

/-- Adds a file and queues its imports. -/
def takeInFile (w : Walk) (f : Schema.File) : Except Error Walk :=
  if f.nameText.isEmpty then .error .namelessFile
  else if w.closure.contains f.nameText then .ok w
  else
    let w := f.dependencies.foldl enqueue w
    .ok { w with closure := (w.closure.insert f).1 }

def takeIn (w : Walk) (files : List Schema.File) : Except Error Walk :=
  files.foldlM takeInFile w

end Walk

variable {σ : Type}

/-- Asks for the file of each symbol in order. -/
def askSymbols (server : Server σ) (limit : Option Duration) :
    Trace σ → Session → Walk → List String → Trace σ × Session × Except Error Walk
  | t, s, w, [] => (t, s, .ok w)
  | t, s, w, symbol :: rest =>
    match requestFiles server limit t s (.symbol symbol) with
    | (t, s, .error e) => (t, s, .error e)
    | (t, s, .ok files) =>
      match w.takeIn files with
      | .error e => (t, s, .error e)
      | .ok w => askSymbols server limit t s w rest

/-- Asks for the files in the queue until it is empty. At most `fuel` names are taken from the queue;
without an answer there were more. -/
def askImports (server : Server σ) (limit : Option Duration) :
    (fuel : Nat) → Trace σ → Session → Walk → Trace σ × Session × Option (Except Error Walk)
  | 0, t, s, w => (t, s, if w.queue.isEmpty then some (.ok w) else none)
  | fuel + 1, t, s, w =>
    match w.queue with
    | [] => (t, s, some (.ok w))
    | name :: queue =>
      let w := { w with queue }
      if w.closure.contains name then askImports server limit fuel t s w
      else
        match requestFiles server limit t s (.file name) with
        | (t, s, .ok files) =>
          match w.takeIn files with
          | .error e => (t, s, some (.error e))
          | .ok w => askImports server limit fuel t s w
        | (t, s, .error e) =>
          if Schema.isStandard name && e.saysNotFound then
            askImports server limit fuel t s.reopen
              { w with closure := w.closure.noteMissing name }
          else (t, s, some (.error e))

/-- Finds the files that define some symbols, with everything they import. -/
def resolve (server : Server σ) (limit : Option Duration) (fuel : Nat) (t : Trace σ) (s : Session)
    (symbols : List String) : Trace σ × Session × Option (Except Error Schema.Closure) :=
  match askSymbols server limit t s Walk.start symbols with
  | (t, s, .error e) => (t, s, some (.error e))
  | (t, s, .ok w) =>
    let (t, s, result) := askImports server limit fuel t s w
    (t, s, result.map (·.map (·.closure)))

/-- The names that belong to the reflection service itself. -/
def ownNamespace : String := "grpc.reflection."

def isUserService (name : String) : Bool :=
  !ownNamespace.toList.isPrefixOf name.toList

/-- The services in a response; a response of another kind was not expected. -/
def readServices : Response → Except Error (List String)
  | .services names => .ok (names.filter isUserService)
  | response => .error (.unexpected response.text)

/-- Asks for the services that users call. -/
def askServices (server : Server σ) (limit : Option Duration) (t : Trace σ) (s : Session) :
    Trace σ × Session × Except Error (List String) :=
  let (t, s, result) := request server limit t s .services
  (t, s, result.bind readServices)

/-- The services of a server, and the files that describe them. -/
structure Discovery where
  services : List String
  closure : Schema.Closure
  deriving DecidableEq

/-- Finds the services of a server and their files, within a time if there is a limit. -/
def discover (server : Server σ) (limit : Option Duration) (fuel : Nat) (t : Trace σ) :
    Trace σ × Option (Except Error Discovery) :=
  match askServices server limit t.restart .new with
  | (t, s, .error e) => (t.leave s, some (.error e))
  | (t, s, .ok services) =>
    let (t, s, result) := resolve server limit fuel t s services
    (t.leave s, result.map (·.map fun closure => ⟨services, closure⟩))

def servicesOf (server : Server σ) (t : Trace σ) : Trace σ × Except Error (List String) :=
  let (t, s, result) := askServices server none t.restart .new
  (t.leave s, result)

/-- Finds the files that define some symbols, without a limit of time. -/
def closureOf (server : Server σ) (fuel : Nat) (t : Trace σ) (symbols : List String) :
    Trace σ × Option (Except Error Schema.Closure) :=
  let (t, s, result) := resolve server none fuel t.restart .new symbols
  (t.leave s, result)

end RpcGateway.Reflection
