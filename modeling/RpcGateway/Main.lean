import RpcGateway.Cli.Run
/-!
# The program

Takes what a command needs from the system, runs it, and prints what it prints. The program has no
transport of its own: no address can be reached or listened on, so there is never a file to write.
-/
open RpcGateway

/-- The variables of the environment that options can be set by. -/
def optionVariables : List String :=
  ["LOG_FORMAT", "GANTRY_LISTEN", "GANTRY_TIMEOUT_SECS", "GANTRY_MAX_BODY_BYTES", "GANTRY_WORKDIR",
    "GANTRY_WORKDIR_MAX_AGE_SECS", "GANTRY_SWEEP_INTERVAL_SECS", "GANTRY_TARGET_HEADER"]

def readEnvironment (names : List String) : IO (List (String × String)) :=
  names.filterMapM fun name => do return (← IO.getEnv name).map (name, ·)

/-- The content of a file, if it can be read. -/
def readFile? (path : String) : IO (Option Bytes) := do
  try
    return some (← IO.FS.readBinFile path).toList
  catch _ => return none

/-- The file that a command line takes its input from. -/
def inputPath? (environment : Cli.Environment) (arguments : List String) : Option String :=
  match Cli.CommandLine.read environment arguments with
  | .ok ⟨_, .call _ _ input _ _⟩ => input
  | _ => none

/-- What is sent to the program, if the command line asks for it. -/
def readInput (environment : Cli.Environment) (arguments : List String) : IO Bytes := do
  match Cli.CommandLine.read environment arguments with
  | .ok ⟨_, .call _ _ none _ _⟩ => return (← (← IO.getStdin).readBinToEnd).toList
  | _ => return []

def main (arguments : List String) : IO UInt32 := do
  let values ← readEnvironment optionVariables
  let environment := fun name => values.lookup name
  let input ← readInput environment arguments
  let content ← match inputPath? environment arguments with
    | some path => readFile? path
    | none => pure none
  let around : Cli.Surroundings Unit := ⟨.silent, input, fun _ => content, fun _ => false⟩
  match Cli.run environment around ⟨.empty, .start ()⟩ arguments with
  | (_, .ended exit printed) =>
    (← IO.getStdout).write ⟨printed.output.toArray⟩
    (← IO.getStderr).putStr printed.errors
    return UInt32.ofNat exit
  | (_, .serving _) => return 0
