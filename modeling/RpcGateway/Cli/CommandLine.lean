import RpcGateway.Cli.Command
/-!
# Reading command lines

Reads the options before the command, the command, and what belongs to it. What follows the command is
checked first.
-/
namespace RpcGateway.Cli

/-- A draft with the log format, which can be given for every command. -/
structure Level (α : Type) where
  logStyle : Option LogStyle
  values : α

def logStyleOption {α : Type} : Opt (Level α) :=
  option "log-format" none (some "LOG_FORMAT") readLogStyle fun l x => { l with logStyle := some x }

def Grammar.withLogStyle {α : Type} (g : Grammar α) : Grammar (Level α) where
  options := g.options.map (·.inPart Level.values fun l x => { l with values := x }) ++
    [logStyleOption]
  arguments := g.arguments.map (·.inPart Level.values fun l x => { l with values := x })
  commands := g.commands
  hasVersion := g.hasVersion

def commandNames : List String := ["serve", "discover", "call"]

def helpName : String := "help"

def topGrammar : Grammar Unit where
  options := []
  arguments := []
  commands := commandNames ++ [helpName]
  hasVersion := true

abbrev Environment := String → Option String

/-- Reads what follows a command, and tells the log format that stands there. -/
def readArguments {α : Type} (environment : Environment) (g : Grammar α) (start : α)
    (arguments : List String) : Except UsageError (Option LogStyle × α) := do
  let g := g.withLogStyle
  let (s, _) ← Scan.run g (.start g ⟨none, start⟩) arguments
  let s ← s.settle
  let level ← fillIn environment s.given s.draft g.options
  return (s.draft.logStyle, level.values)

def readCommand (environment : Environment) (name : String) (arguments : List String) :
    Except UsageError (Option LogStyle × Command) := do
  match name with
  | "serve" =>
    let (format, options) ← readArguments environment serveGrammar {} arguments
    return (format, .serve options)
  | "discover" =>
    let (format, draft) ← readArguments environment discoverGrammar {} arguments
    return (format, ← draft.discovery)
  | "call" =>
    let (format, draft) ← readArguments environment callGrammar {} arguments
    return (format, ← draft.call)
  | _ => throw (.unknownCommand name)

/-- What the command `help` asks for by what follows it. -/
def helpFor : List String → UsageError
  | [] => .help none true
  | name :: rest =>
    if topGrammar.commands.contains name then
      match rest with
      | [] => .help (some name) true
      | argument :: _ => .unknownCommand argument
    else .unknownCommand name

/-- A usage error that came up behind a command. -/
def UsageError.behind (name : String) : UsageError → UsageError
  | .help _ inFull => .help (some name) inFull
  | e => e

def noCommand (nothingGiven : Bool) : UsageError :=
  if nothingGiven then .helpOnMissing else .missingCommand

def CommandLine.read (environment : Environment) (arguments : List String) : Except UsageError CommandLine := do
  let g := topGrammar.withLogStyle
  match ← Scan.run g (.start g ⟨none, ()⟩) arguments with
  | (s, none) =>
    let s ← s.settle
    let level ← fillIn environment s.given s.draft g.options
    throw (noCommand level.logStyle.isNone)
  | (s, some (name, rest)) =>
    if name = helpName then throw (helpFor rest)
    let (inner, command) ← (readCommand environment name rest).mapError (·.behind name)
    let s ← s.settle
    let level ← fillIn environment s.given s.draft g.options
    return ⟨((inner <|> level.logStyle).getD .text), command⟩

end RpcGateway.Cli
