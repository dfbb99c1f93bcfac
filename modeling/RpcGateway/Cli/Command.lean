import RpcGateway.Cli.Scan
import RpcGateway.Cli.Value
import RpcGateway.Gateway.Settings
/-!
# Commands

The commands of the program and their options. A value on the command line goes before one in the
environment, and that before the default; the log format may be given before the command and after it, and
what stands after it counts.
-/
namespace RpcGateway.Cli

structure ServeOptions where
  listen : Net.SocketAddress := Gateway.defaultAddress
  timeoutSeconds : Nat := Gateway.defaultTimeoutSeconds
  maxBody : Nat := Gateway.defaultMaxBody
  workdir : Option String := none
  maxAgeSeconds : Nat := Gateway.defaultMaxAgeSeconds
  sweepSeconds : Nat := Gateway.defaultSweepSeconds
  targetName : Header.Name := Header.defaultTarget
  deriving DecidableEq, Repr

/-- The settings of a gateway. Without a working directory it uses one below that for temporary files. -/
def ServeOptions.settings (o : ServeOptions) (temporary : String) : Gateway.Settings where
  timeout := .ofSeconds o.timeoutSeconds
  maxBody := o.maxBody
  workdir := match o.workdir with
    | some path => Path.ofText path
    | none => (Path.ofText temporary).withoutSlash ++ ["gantry"]
  targetName := o.targetName

inductive Command where
  | serve (options : ServeOptions)
  | discover (target : Target) (out : String) (timeoutSeconds : Nat)
  | call (target : Target) (method : String) (input : Option String)
      (headers : List (String × String)) (timeoutSeconds : Nat)
  deriving DecidableEq, Repr

structure CommandLine where
  logStyle : LogStyle
  command : Command
  deriving DecidableEq, Repr

/-- An option whose value takes a place in the draft. -/
def option {α β : Type} (name : String) (letter : Option Char) (envName : Option String)
    (read : ValueReader β) (put : α → β → α) : Opt α :=
  ⟨⟨name, fun draft value => (read name value).map (put draft)⟩, letter, envName, false⟩

/-- An argument by position whose value takes a place in the draft. -/
def argument {α β : Type} (name : String) (read : ValueReader β) (put : α → β → α) : Slot α :=
  ⟨name, fun draft value => (read name value).map (put draft)⟩

def serveGrammar : Grammar ServeOptions where
  options := [
    option "listen" none (some "GANTRY_LISTEN") readListen fun o x => { o with listen := x },
    option "timeout-secs" none (some "GANTRY_TIMEOUT_SECS") readNumber
      fun o x => { o with timeoutSeconds := x },
    option "max-body-bytes" none (some "GANTRY_MAX_BODY_BYTES") readNumber
      fun o x => { o with maxBody := x },
    option "workdir" none (some "GANTRY_WORKDIR") readPath fun o x => { o with workdir := some x },
    option "workdir-max-age-secs" none (some "GANTRY_WORKDIR_MAX_AGE_SECS") readNumber
      fun o x => { o with maxAgeSeconds := x },
    option "sweep-interval-secs" none (some "GANTRY_SWEEP_INTERVAL_SECS") readPositive
      fun o x => { o with sweepSeconds := x },
    option "target-header" none (some "GANTRY_TARGET_HEADER") readHeaderName
      fun o x => { o with targetName := x }]
  arguments := []

/-- What was read of a discovery or a call. -/
structure Draft where
  target : Option Target := none
  method : Option String := none
  out : Option String := none
  input : Option String := none
  headers : List (String × String) := []
  timeoutSeconds : Nat := Gateway.defaultTimeoutSeconds

def targetArgument : Slot Draft :=
  argument "target" readTarget fun d x => { d with target := some x }

def timeoutOption : Opt Draft :=
  option "timeout-secs" none none readNumber fun d x => { d with timeoutSeconds := x }

def discoverGrammar : Grammar Draft where
  options := [option "out" (some 'o') none readPath fun d x => { d with out := some x }, timeoutOption]
  arguments := [targetArgument]

def callGrammar : Grammar Draft where
  options := [
    option "input" (some 'i') none readPath fun d x => { d with input := some x },
    { option "header" (some 'H') none readHeader
        fun (d : Draft) x => { d with headers := d.headers ++ [x] } with repeats := true },
    timeoutOption]
  arguments := [
    targetArgument,
    argument "endpoint" readMethod fun d x => { d with method := some x }]

/-- A part of a draft that must have been given. -/
def required {β : Type} (name : String) : Option β → Except UsageError β
  | some x => .ok x
  | none => .error (.missingArgument name)

def Draft.discovery (d : Draft) : Except UsageError Command := do
  return .discover (← required "target" d.target) (← required "out" d.out) d.timeoutSeconds

def Draft.call (d : Draft) : Except UsageError Command := do
  return .call (← required "target" d.target) (← required "endpoint" d.method) d.input d.headers
    d.timeoutSeconds

end RpcGateway.Cli
