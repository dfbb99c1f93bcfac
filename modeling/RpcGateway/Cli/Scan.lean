import RpcGateway.Cli.Grammar
import RpcGateway.Text.Cut
/-!
# Scanning command lines

Reads the arguments of a command from left to right. A value is read only when the next option or argument
begins or the line ends, so an unknown argument is reported before a bad value in front of it.
-/
namespace RpcGateway.Cli

inductive Token where
  | endOfOptions
  | long (name : String) (value : Option String)
  | short (letter : Char) (rest : List Char)
  | plain
  deriving DecidableEq, Repr

def Token.ofArgument (argument : String) : Token :=
  match argument.toList with
  | ['-', '-'] => .endOfOptions
  | '-' :: '-' :: cs =>
    match Cut.around? '=' cs with
    | some (name, value) => .long (String.ofList name) (some (String.ofList value))
    | none => .long (String.ofList cs) none
  | '-' :: c :: rest => .short c rest
  | _ => .plain

/-- What is left to do before the next option or argument begins. -/
inductive Pending (α : Type) where
  | nothing
  | awaiting (option : Opt α)
  | holding (option : Opt α) (value : String)

/-- How far a scan has come. `given` are the options whose values were read. -/
structure Scan (α : Type) where
  draft : α
  given : List String
  pending : Pending α
  slots : List (Slot α)
  plainOnly : Bool

namespace Scan

variable {α : Type}

def start (g : Grammar α) (draft : α) : Scan α := ⟨draft, [], .nothing, g.arguments, false⟩

def take (s : Scan α) (option : Opt α) (value : String) : Except UsageError (Scan α) :=
  if s.given.contains option.name && !option.repeats then .error (.repeated option.name)
  else do
    let draft ← option.store s.draft value
    return { s with draft, given := option.name :: s.given, pending := .nothing }

def settle (s : Scan α) : Except UsageError (Scan α) :=
  match s.pending with
  | .nothing => .ok s
  | .awaiting option => .error (.missingValue option.name)
  | .holding option value => s.take option value

/-- Takes an option with or without a value attached to it. -/
def takeFlag (s : Scan α) (flag : Flag α) (attached : Option String) : Except UsageError (Scan α) := do
  let s ← s.settle
  match flag, attached with
  | .help inFull, _ => throw (.help none inFull)
  | .version, _ => throw .version
  | .value option, some value => s.take option value
  | .value option, none => return { s with pending := .awaiting option }

/-- Takes an option by its long name. A flag never takes a value. -/
def takeLong (g : Grammar α) (s : Scan α) (argument name : String) (attached : Option String) :
    Except UsageError (Scan α) :=
  match g.named? name, attached with
  | none, _ => .error (.unknownArgument argument)
  | some (.value option), _ => s.takeFlag (.value option) attached
  | some _, some _ => .error (.surplusValue name)
  | some flag, none => s.takeFlag flag none

/-- The value that follows a letter in the same argument, after an equals sign or without. -/
def attachedTo (rest : List Char) : Option String :=
  match rest with
  | [] => none
  | '=' :: value => some (String.ofList value)
  | value => some (String.ofList value)

def takeShort (g : Grammar α) (s : Scan α) (argument : String) (letter : Char) (rest : List Char) :
    Except UsageError (Scan α) :=
  match g.lettered? letter with
  | none => .error (.unknownArgument argument)
  | some flag => s.takeFlag flag (attachedTo rest)

def noPlace (g : Grammar α) (s : Scan α) (argument : String) : UsageError :=
  if g.commands.isEmpty || (s.plainOnly && g.commands.contains argument) then
    .unknownArgument argument
  else .unknownCommand argument

def takePlain (g : Grammar α) (s : Scan α) (argument : String) : Except UsageError (Scan α) :=
  match s.slots with
  | [] => .error (noPlace g s argument)
  | slot :: rest => do
    let s ← s.settle
    return { s with pending := .holding ⟨slot, none, none, false⟩ argument, slots := rest }

def step (g : Grammar α) (s : Scan α) (argument : String) : Except UsageError (Scan α) :=
  if s.plainOnly then takePlain g s argument
  else match Token.ofArgument argument with
    | .endOfOptions => .ok { s with plainOnly := true }
    | .long name attached => takeLong g s argument name attached
    | .short letter rest => takeShort g s argument letter rest
    | .plain =>
      match s.pending with
      | .awaiting option => .ok { s with pending := .holding option argument }
      | _ => takePlain g s argument

def beginsCommand (g : Grammar α) (s : Scan α) (argument : String) : Bool :=
  match s.pending with
  | .awaiting _ => false
  | _ => !s.plainOnly && g.commands.contains argument

/-- Takes arguments up to the name of another command, which comes back with what follows it. -/
def run (g : Grammar α) : Scan α → List String →
    Except UsageError (Scan α × Option (String × List String))
  | s, [] => .ok (s, none)
  | s, argument :: rest =>
    if beginsCommand g s argument then .ok (s, some (argument, rest))
    else do run g (← step g s argument) rest

end Scan

/-- Sets the options that were not given and have a variable in the environment. -/
def fillIn {α : Type} (environment : String → Option String) (given : List String) (draft : α)
    (options : List (Opt α)) : Except UsageError α :=
  options.foldlM (fun draft option =>
    match given.contains option.name, option.envName.bind environment with
    | false, some value => option.store draft value
    | _, _ => .ok draft) draft

end RpcGateway.Cli
