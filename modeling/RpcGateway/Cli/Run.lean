import RpcGateway.Cli.Help
import RpcGateway.Cli.CommandLine
import RpcGateway.Call.Dial
import RpcGateway.Network
import RpcGateway.Reflection.Discovery
import RpcGateway.Reflection.Message
import RpcGateway.Export
/-!
# Running commands

What a command line amounts to: what is printed, the status with which the program ends, and the files that
are written. A gateway that could be started is not ended here.
-/
namespace RpcGateway.Cli

open Reflection (Trace)

inductive RunError where
  | input (path : String)
  | link (reason : LinkError)
  | dial (reason : DialError)
  | status (answer : Status)
  | reflection (reason : Reflection.Error)
  | files (reason : ExportError)
  | listen
  deriving DecidableEq, Repr

def RunError.message : RunError → String
  | .input path => s!"failed to read '{path}'"
  | .link reason => reason.message
  | .dial reason => reason.message
  | .status answer => s!"call failed with status {answer.code.name}: {answer.message}"
  | .reflection reason => reason.message
  | .files reason => reason.message
  | .listen => "gateway failed"

/-- What a command finds around it: the network, what can be read, and the addresses to listen on. -/
structure Surroundings (σ : Type) where
  network : Network σ
  input : Bytes
  file : String → Option Bytes
  canListen : Net.SocketAddress → Bool

/-- What a command changes: the disk, and what reflection servers were asked. -/
structure Effects (σ : Type) where
  disk : Disk
  trace : Trace σ

structure Printed where
  output : Bytes
  errors : String
  deriving DecidableEq, Repr

variable {σ : Type}

/-- The message of a call, from a file or from the input. -/
def readMessage (around : Surroundings σ) : Option String → Except RunError Bytes
  | none => .ok around.input
  | some path =>
    match around.file path with
    | some content => .ok content
    | none => .error (.input path)

/-- Makes a call and prints the message that comes back. -/
def call (around : Surroundings σ) (target : Target) (method : String) (input : Option String)
    (headers : List (String × String)) (limit : Duration) : Except RunError Printed := do
  let message ← readMessage around input
  let find := fun endpoint => (around.network.peer endpoint).map Peer.backend
  match ← (Call.dial find target method message headers limit).outcome.mapError .dial with
  | .ok answer => return ⟨answer, ""⟩
  | .error status => throw (.status status)

def discoveryText (services : List String) (files : List Export.Written) : String :=
  lines (["Services:"] ++ services.map ("  " ++ ·) ++ ["Files:"] ++
    files.map fun f => "  " ++ f.path.text)

/-- What is printed of files that the server lacks. -/
def warnings (missing : List String) : String :=
  lines (missing.map fun name => s!"warning: '{name}' was not provided by the server")

/-- Finds the services of a target and writes their files below a directory. -/
def discover (around : Surroundings σ) (before : Effects σ) (target : Target) (out : String)
    (limit : Duration) : Effects σ × Except RunError Printed :=
  match connect around.network.peer target limit with
  | .error e => (before, .error (.link e))
  | .ok (peer, _) =>
    match Reflection.discover peer.reflection.delivered (some limit) around.network.patience before.trace with
    | (trace, none) => ({ before with trace }, .error (.reflection (.timeout limit)))
    | (trace, some (.error e)) => ({ before with trace }, .error (.reflection e))
    | (trace, some (.ok found)) =>
      match Export.writeAll (Path.ofText out).withoutSlash before.disk found.closure with
      | (disk, .error e) => (⟨disk, trace⟩, .error (.files e))
      | (disk, .ok files) =>
        let output := bytesOf (discoveryText found.services files)
        (⟨disk, trace⟩, .ok ⟨output, warnings found.closure.missing⟩)

/-- How a command line comes to its end, or that the gateway runs from now on. -/
inductive Outcome where
  | ended (exit : Nat) (printed : Printed)
  | serving (options : ServeOptions)
  deriving DecidableEq, Repr

def Outcome.ofResult : Except RunError Printed → Outcome
  | .ok printed => .ended 0 printed
  | .error e => .ended 1 ⟨[], lines [s!"Error: {e.message}"]⟩

/-- The end of a command line that starts no command. -/
def Outcome.ofUsage : UsageError → Outcome
  | .help command inFull => .ended 0 ⟨bytesOf (helpText command inFull), ""⟩
  | .version => .ended 0 ⟨bytesOf versionText, ""⟩
  | .helpOnMissing => .ended 2 ⟨[], helpText none false⟩
  | e => .ended 2 ⟨[], lines [e.message]⟩

def runCommand (around : Surroundings σ) (before : Effects σ) : Command → Effects σ × Outcome
  | .serve options =>
    if around.canListen options.listen then (before, .serving options)
    else (before, .ofResult (.error .listen))
  | .discover target out seconds =>
    let (after, result) := discover around before target out (.ofSeconds seconds)
    (after, .ofResult result)
  | .call target method input headers seconds =>
    (before, .ofResult (call around target method input headers (.ofSeconds seconds)))

def run (environment : Environment) (around : Surroundings σ) (before : Effects σ)
    (arguments : List String) : Effects σ × Outcome :=
  match CommandLine.read environment arguments with
  | .error e => (before, .ofUsage e)
  | .ok line => runCommand around before line.command

end RpcGateway.Cli
