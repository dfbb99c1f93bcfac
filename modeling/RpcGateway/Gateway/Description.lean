import RpcGateway.Gateway.Settings
import RpcGateway.Gateway.Protocol
import RpcGateway.Network
import RpcGateway.Reflection.Discovery
import RpcGateway.Reflection.Message
import RpcGateway.Text.Json
/-!
# Descriptions

Asks a target for its services and schema files, puts the files as source text into a directory of their
own, and answers with all of it. Connecting and asking share one limit of time.
-/
namespace RpcGateway.Gateway

open Reflection (Discovery Trace)

structure Description where
  services : List String
  workdir : String
  files : List Export.Written
  missing : List String

namespace Description

def fileText (f : Export.Written) : String :=
  JsonText.object [("idl", JsonText.string f.text), ("unknown_types", toString f.namelessTypes)]

/-- Whether a name comes before another or is the same. -/
def isSorted (a b : Export.Written) : Bool :=
  !decide (b.name < a.name)

/-- The text of a description, in which the files are sorted by name. -/
def text (d : Description) : String :=
  JsonText.object [
    ("services", JsonText.array (d.services.map JsonText.string)),
    ("workdir", JsonText.string d.workdir),
    ("files", JsonText.object ((d.files.mergeSort isSorted).map fun f => (f.name, fileText f))),
    ("missing", JsonText.array (d.missing.map JsonText.string))]

end Description

/-- Finds the services and files of a target within a time for connecting and asking together. A discovery
that never ends runs out of time. -/
def discoverAt {σ : Type} (network : Network σ) (target : Target) (limit : Duration)
    (t : Trace σ) : Trace σ × Except Failure Discovery :=
  match connect network.peer target limit with
  | .error e => (t, .error (.link e))
  | .ok (peer, delay) =>
    let rest : Duration := ⟨limit.nanoseconds - delay.nanoseconds⟩
    match Reflection.discover peer.reflection.delivered (some rest) network.patience t with
    | (t, some (.ok discovery)) => (t, .ok discovery)
    | (t, some (.error (.timeout _))) => (t, .error (.reflection (.timeout limit)))
    | (t, some (.error e)) => (t, .error (.reflection e))
    | (t, none) => (t, .error (.reflection (.timeout limit)))

/-- Writes what was found into a directory and describes it. -/
def writeDescription (workdir : Path) (d : Disk) (found : Discovery) :
    Disk × Except Failure Description :=
  match Export.writeAll workdir d found.closure with
  | (d, .error e) => (d, .error (.files e))
  | (d, .ok files) => (d, .ok ⟨found.services, workdir.text, files, found.closure.missing⟩)

def descriptionType : String := "application/json"

/-- What lasts from one request to the next: the disk, and what the reflection servers were asked. -/
structure State (σ : Type) where
  disk : Disk
  trace : Trace σ

/-- Answers a request for a description, whose files go into a directory of the given name. -/
def describeTarget {σ : Type} (settings : Settings) (network : Network σ) (directory : String)
    (state : State σ) (headers : Headers) : State σ × Except Failure Http.Response :=
  match targetOf headers settings.targetName with
  | .error e => (state, .error e)
  | .ok target =>
    match discoverAt network target settings.timeout state.trace with
    | (trace, .error e) => ({ state with trace }, .error e)
    | (trace, .ok found) =>
      match writeDescription (settings.workdir.withoutSlash ++ [directory]) state.disk found with
      | (disk, .error e) => (⟨disk, trace⟩, .error e)
      | (disk, .ok description) =>
        (⟨disk, trace⟩, .ok (.ofBytes 200 descriptionType (bytesOf description.text)))

end RpcGateway.Gateway
