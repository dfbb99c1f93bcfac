/-!
# Usage errors

Why a command line starts no command. Asking for help or for the version counts as such.
-/
namespace RpcGateway.Cli

/-- Why a command line starts no command. Arguments are given as they were written, options and values by
their names. -/
inductive UsageError where
  | help (command : Option String) (inFull : Bool)
  | helpOnMissing
  | version
  | missingCommand
  | unknownCommand (argument : String)
  | unknownArgument (argument : String)
  | missingArgument (name : String)
  | repeated (name : String)
  | missingValue (name : String)
  | surplusValue (name : String)
  | unknownChoice (name value : String)
  | invalidValue (name value reason : String)
  deriving DecidableEq, Repr

namespace UsageError

/-- What is said of a usage error. Help and version are no failures, and nothing is said of them here. -/
def message : UsageError → String
  | .help _ _ => ""
  | .helpOnMissing => ""
  | .version => ""
  | .missingCommand => "error: a command is required"
  | .unknownCommand argument => s!"error: unrecognized command '{argument}'"
  | .unknownArgument argument => s!"error: unexpected argument '{argument}' found"
  | .missingArgument name => s!"error: the argument '{name}' is required"
  | .repeated name => s!"error: the argument '{name}' cannot be used multiple times"
  | .missingValue name => s!"error: a value is required for '{name}' but none was supplied"
  | .surplusValue name => s!"error: the argument '{name}' takes no value"
  | .unknownChoice name value => s!"error: invalid value '{value}' for '{name}'"
  | .invalidValue name value reason => s!"error: invalid value '{value}' for '{name}': {reason}"

end UsageError

end RpcGateway.Cli
