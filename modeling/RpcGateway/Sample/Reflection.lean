import RpcGateway.Reflection.Discovery
/-!
# Sample reflection servers

Two servers that answer from fixed tables. The scripted one serves a set of files; the table server gives
each query the replies that are listed for it, and so can answer with anything.
-/
namespace RpcGateway.Sample

open Reflection

/-- A server of services and files. With `failStream` it reports what it lacks by ending the stream. -/
structure Script where
  services : List (String × String)
  files : List Schema.File
  failStream : Bool

namespace Script

/-- The last of several things with a property. -/
def findLast? {α : Type} (p : α → Bool) (xs : List α) : Option α :=
  xs.reverse.find? p

/-- The outcome for something that is not there. -/
def lacking (script : Script) (message : String) : Outcome :=
  if script.failStream then .failed ⟨.notFound, message⟩
  else .response (.error StatusCode.notFound.number message)

/-- The outcome for a file by its name. -/
def fileOutcome (script : Script) (name : String) : Outcome :=
  match findLast? (·.nameText == name) script.files with
  | some file => .response (.files [file.encode])
  | none => script.lacking ("file not found: " ++ name)

def outcome (script : Script) : Query → Outcome
  | .services => .response (.services (script.services.map Prod.fst))
  | .file name => script.fileOutcome name
  | .symbol name =>
    match findLast? (·.1 == name) script.services with
    | some (_, file) => script.fileOutcome file
    | none => script.lacking ("symbol not found: " ++ name)

/-- The server of a script. It replies at once and has no memory. -/
def server (script : Script) : Server Unit where
  opening := fun _ _ => ((), .served)
  reads := fun _ _ => true
  reply := fun _ _ query => ((), ⟨script.outcome query, ⟨0⟩⟩)

/-- No discovery takes more names than this from its queue. -/
def importCount (script : Script) : Nat :=
  (script.files.flatMap (·.dependencies)).length

end Script

/-- A server with listed replies. The last reply of a list is given again and again. `opening` is what
becomes of every stream. -/
structure Table where
  opening : Opening
  replies : List (String × List Reply)
  failStream : Bool

namespace Table

abbrev Counts := List (String × Nat)

/-- The reply to a query that was asked some times before; none if nothing is listed. -/
def listed? (table : Table) (key : String) (count : Nat) : Option Reply :=
  (table.replies.lookup key).bind fun replies =>
    match replies[count]? with
    | some reply => some reply
    | none => replies.getLast?

/-- The reply to a query for which nothing is listed. -/
def lacking (table : Table) (key : String) : Reply :=
  let message := "not found: " ++ key
  let outcome : Outcome :=
    if table.failStream then .failed ⟨.notFound, message⟩
    else .response (.error StatusCode.notFound.number message)
  ⟨outcome, ⟨0⟩⟩

def count (counts : Counts) (key : String) : Counts :=
  (key, (counts.lookup key).getD 0 + 1) :: counts

def server (table : Table) : Server Counts where
  opening := fun counts _ => (counts, table.opening)
  reads := fun _ _ => true
  reply := fun counts _ query =>
    let key := query.text
    (count counts key, (table.listed? key ((counts.lookup key).getD 0)).getD (table.lacking key))

/-- The imports of a file in its binary form. -/
def importsOf (file : Bytes) : List String :=
  match Schema.File.decode file with
  | .ok file => file.dependencies
  | .error _ => []

def importsIn (reply : Reply) : List String :=
  match reply.outcome with
  | .response (.files files) => files.flatMap importsOf
  | _ => []

/-- No discovery takes more names than this from its queue. -/
def importCount (table : Table) : Nat :=
  (table.replies.flatMap fun (_, replies) => replies.flatMap importsIn).length

end Table

end RpcGateway.Sample
