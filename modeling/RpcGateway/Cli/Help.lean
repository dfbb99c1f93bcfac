import RpcGateway.Cli.Error
/-!
# Help

What the program says of itself: its version, and a page for each command with its arguments and options.
A page has a brief and a full form; the page on the program has one form only.
-/
namespace RpcGateway.Cli

def versionText : String := "gantry 0.1.0\n"

/-- Lines of text, each with its end. -/
def lines (texts : List String) : String :=
  String.join (texts.map (· ++ "\n"))

/-- One thing that a page explains: how it is written, what it does, and what else is to be known. -/
structure Entry where
  head : String
  text : String
  notes : List String := []
  deriving DecidableEq, Repr

def Entry.parts (e : Entry) : List String :=
  if e.text.isEmpty then e.notes else e.text :: e.notes

def Entry.brief (e : Entry) : String :=
  String.intercalate " " e.parts

/-- The lines of an entry in full: the text, and the notes below an empty line. -/
def Entry.full (e : Entry) : List String :=
  if e.text.isEmpty then (if e.notes.isEmpty then [""] else e.notes)
  else e.text :: (if e.notes.isEmpty then [] else "" :: e.notes)

/-- A text with blanks behind it up to a width. -/
def padded (width : Nat) (s : String) : String :=
  s ++ String.ofList (List.replicate (width - s.length) ' ')

def headWidth (entries : List Entry) : Nat :=
  (entries.map (·.head.length)).foldl max 0

/-- The columns of a page, and those that heads may take before texts are moved to lines of their own. -/
def pageWidth : Nat := 100
def maxHeadWidth : Nat := 40

/-- Whether the heads leave too little room for the text of some entry. -/
def isCrowded (entries : List Entry) : Bool :=
  let taken := headWidth entries + 4
  maxHeadWidth < taken && entries.any fun e => pageWidth - taken < e.brief.length

def columns (entries : List Entry) : List String :=
  let width := headWidth entries
  entries.map fun e => "  " ++ padded width e.head ++ "  " ++ e.brief

def below (line : String) : String :=
  "          " ++ line

/-- Entries with their texts below their heads. -/
def stacked (entries : List Entry) : List String :=
  entries.flatMap fun e => ["  " ++ e.head, below e.brief]

def briefEntries (entries : List Entry) : List String :=
  if isCrowded entries then stacked entries else columns entries

/-- Entries in full, with empty lines between them. -/
def fullEntries : List Entry → List String
  | [] => []
  | [e] => ("  " ++ e.head) :: e.full.map below
  | e :: rest => ("  " ++ e.head) :: e.full.map below ++ "" :: fullEntries rest

/-- A page. `details` are the paragraphs that only the full form has; a page without details has the brief
form alone. -/
structure Page where
  summary : String
  details : List String := []
  usage : String
  commands : List Entry := []
  arguments : List Entry := []
  options : List Entry := []
  deriving DecidableEq, Repr

/-- Entries under a heading with an empty line before it, if there are any. -/
def underHeading (heading : String) (print : List Entry → List String) (entries : List Entry) :
    List String :=
  if entries.isEmpty then [] else ["", heading] ++ print entries

/-- The option for help, which tells of the other form of the page. -/
def helpEntry (text : String) : Entry := ⟨"-h, --help", text, []⟩

def Page.body (p : Page) (print : List Entry → List String) (options : List Entry) : List String :=
  underHeading "Commands:" columns p.commands ++ underHeading "Arguments:" print p.arguments ++
    underHeading "Options:" print options

def Page.brief (p : Page) : List String :=
  let help := if p.details.isEmpty then [] else [helpEntry "Print help (see more with '--help')"]
  [p.summary, "", "Usage: " ++ p.usage] ++ p.body briefEntries (p.options ++ help)

def Page.full (p : Page) : List String :=
  let options := p.options ++ [helpEntry "Print help (see a summary with '-h')"]
  [p.summary] ++ p.details.flatMap (["", ·]) ++ ["", "Usage: " ++ p.usage] ++
    p.body fullEntries options

def logStyleEntry : Entry where
  head := "    --log-format <LOG_FORMAT>"
  text := "Log output format"
  notes := ["[env: LOG_FORMAT=]", "[default: text]", "[possible values: text, json]"]

def timeoutEntry : Entry where
  head := "    --timeout-secs <TIMEOUT_SECS>"
  text := ""
  notes := ["[default: 5]"]

def serveSummary : String := "Run the HTTP gateway"
def discoverSummary : String :=
  "Discover the services of a backend through reflection and write their schema as .proto files"
def callSummary : String := "Perform a unary gRPC call with a raw Protobuf payload"
def helpSummary : String := "Print this message or the help of the given subcommand(s)"

def programPage : Page where
  summary := "gRPC-Web and Twirp gateway for schema-less backends"
  usage := "gantry [OPTIONS] <COMMAND>"
  commands := [⟨"serve", serveSummary, []⟩, ⟨"discover", discoverSummary, []⟩,
    ⟨"call", callSummary, []⟩, ⟨"help", helpSummary, []⟩]
  options := [logStyleEntry, helpEntry "Print help", ⟨"-V, --version", "Print version", []⟩]

/-- The page on the command that explains the others. -/
def helpPage : Page where
  summary := helpSummary
  usage := "gantry help [COMMAND]..."
  arguments := [⟨"[COMMAND]...", "Print help for the subcommand(s)", []⟩]

def servePage : Page where
  summary := serveSummary
  details := ["Requests to `/target/<package.Service>/<Method>` are forwarded to the backend named by " ++
    "the target header. gRPC-Web requests are translated to gRPC, anything else is reverse proxied."]
  usage := "gantry serve [OPTIONS]"
  options := [
    ⟨"    --listen <LISTEN>", "Address the gateway listens on",
      ["[env: GANTRY_LISTEN=]", "[default: 127.0.0.1:8080]"]⟩,
    logStyleEntry,
    ⟨"    --timeout-secs <TIMEOUT_SECS>",
      "Timeout for connecting to a backend and for each call made on it",
      ["[env: GANTRY_TIMEOUT_SECS=]", "[default: 5]"]⟩,
    ⟨"    --max-body-bytes <MAX_BODY_BYTES>", "Largest gRPC-Web request body accepted",
      ["[env: GANTRY_MAX_BODY_BYTES=]", "[default: 4194304]"]⟩,
    ⟨"    --workdir <WORKDIR>",
      "Root directory for schema files written by `/describe` [default: <temp dir>/gantry]",
      ["[env: GANTRY_WORKDIR=]"]⟩,
    ⟨"    --workdir-max-age-secs <WORKDIR_MAX_AGE_SECS>",
      "Age after which working directories are deleted",
      ["[env: GANTRY_WORKDIR_MAX_AGE_SECS=]", "[default: 3600]"]⟩,
    ⟨"    --sweep-interval-secs <SWEEP_INTERVAL_SECS>",
      "How often the working directory root is swept",
      ["[env: GANTRY_SWEEP_INTERVAL_SECS=]", "[default: 300]"]⟩,
    ⟨"    --target-header <TARGET_HEADER>", "Header carrying the backend address",
      ["[env: GANTRY_TARGET_HEADER=]", "[default: x-target]"]⟩]

def discoverPage : Page where
  summary := discoverSummary
  details := ["## Examples:",
    "```bash gantry discover http://localhost:50051 --out ./protos ```"]
  usage := "gantry discover [OPTIONS] --out <OUT> <TARGET>"
  arguments := [
    ⟨"<TARGET>", "Backend address (e.g. http://localhost:50051, dns:///svc.local:443)", []⟩]
  options := [
    logStyleEntry,
    ⟨"-o, --out <OUT>", "Directory the .proto files are written to", []⟩,
    timeoutEntry]

def callPage : Page where
  summary := callSummary
  details := ["The request message is read from `--input` (or stdin) and the response message is " ++
      "written to stdout, both as binary Protobuf.",
    "## Examples:",
    "```bash gantry call http://localhost:50051 my.pkg.Service/Method --input request.bin " ++
      "> response.bin ```"]
  usage := "gantry call [OPTIONS] <TARGET> <ENDPOINT>"
  arguments := [
    ⟨"<TARGET>", "Backend address", []⟩,
    ⟨"<ENDPOINT>", "Endpoint (package.Service/Method)", []⟩]
  options := [
    ⟨"-i, --input <INPUT>", "File holding the binary request message, stdin when omitted", []⟩,
    logStyleEntry,
    ⟨"-H, --header <HEADERS>", "", []⟩,
    timeoutEntry]

/-- The page on a command, or on the program. -/
def pageOn : Option String → Page
  | some "serve" => servePage
  | some "discover" => discoverPage
  | some "call" => callPage
  | some "help" => helpPage
  | _ => programPage

/-- The help on a command, or on the program. -/
def helpText (command : Option String) (inFull : Bool) : String :=
  let page := pageOn command
  lines (if inFull && !page.details.isEmpty then page.full else page.brief)

end RpcGateway.Cli
