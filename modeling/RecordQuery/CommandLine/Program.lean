import RecordQuery.CommandLine
import RecordQuery.Json.Writer
import RecordQuery.Pipeline.Document
import RecordQuery.Pipeline.Envelope
import RecordQuery.Settings.Reader

/-!
# The program

What a command line does, given the contents of the files that it names and the environment.
Settings are loaded first, then the files are read in order.

* `CommandLine.perform` is the whole program, as a function;
* `CommandLine.files` lists the files that an invocation names.
-/

namespace RecordQuery.CommandLine

/-- What the program leaves behind. -/
structure Outcome where
  output : String := ""
  /-- Lines for the user about what went wrong. -/
  messages : List String := []
  exitCode : Nat := 0
  deriving DecidableEq

/-- Why a command ends early. -/
inductive Failure
  | query (error : QueryError) (during : String)
  | unreadableFile (path : String)
  | malformedFile (path : String)

namespace Failure

/-- What the program was about to do. -/
def summary : Failure → String
  | .query _ during => during
  | .unreadableFile path => s!"Failed to read {path}"
  | .malformedFile path => s!"Failed to parse JSON in {path}"

/-- The message for the user. -/
def userMessage : Failure → String
  | .query error _ => error.userMessage
  | failure => failure.summary

def exitCode : Failure → Nat
  | .query error _ => error.exitCode
  | _ => 1

/-- The causes, from the outside in, as far as the program words them. -/
def chain : Failure → List String
  | .query error during => [during, error.message]
  | failure => [failure.summary]

/-- Numbers lines from zero. -/
def numbered (lines : List String) : List String :=
  lines.mapIdx fun i line => s!"  {Request.natText i}: {line}"

/-- What is left behind, with the causes if the run is verbose. -/
def outcome (verbosity : Nat) (f : Failure) : Outcome where
  messages := s!"Error: {f.userMessage}"
    :: (if verbosity = 0 then [] else "" :: "Error chain:" :: numbered f.chain)
  exitCode := f.exitCode

end Failure

/-- How much is logged. -/
def logLevel : Nat → String
  | 0 => "info"
  | 1 => "debug"
  | _ => "trace"

/-- A document as it is put out. -/
def render (pretty : Bool) (j : Json) : String := if pretty then j.pretty else j.compact

/-- The files that an invocation names. -/
def files (i : Invocation) : List String :=
  i.settingsPath.toList ++ match i.command with
    | .run data request _ => [data, request]
    | .check request => [request]

/-- The document in a file. -/
def readDocument (content : String → FileContent) (path : String) : Except Failure Json :=
  match content path with
  | .text s =>
    match Json.read? s with
    | some j => .ok j
    | none => .error (.malformedFile path)
  | _ => .error (.unreadableFile path)

/-- A failure of the engine while something was done. -/
def duringQuery {α : Type} (during : String) (r : Except QueryError α) : Except Failure α :=
  r.mapError (.query · during)

/-- The settings of an invocation. A file that is named has to be there. -/
def settingsOf (content : String → FileContent) (env : Environment) (path : Option String) :
    Except Failure Settings :=
  match path with
  | some path =>
    duringQuery s!"Failed to load configuration from {path}"
      (Settings.load (some (path, content path)) true env)
  | none => duringQuery "Failed to load default configuration" (Settings.load none false env)

/-- The report on a request that is valid. -/
def report (q : Request) : String :=
  match q.summary with
  | [] => "request is valid and returns every record unchanged\n"
  | lines => "request is valid\n" ++ String.join (lines.map fun line => s!"  {line}\n")

/-- What a command puts out. -/
def outputOf (content : String → FileContent) (s : Settings) : Command → Except Failure String
  | .run data request pretty => do
    let data ← readDocument content data
    let request ← readDocument content request
    let result ← duringQuery "Failed to execute request" (executeJson s data request)
    .ok (render pretty result.envelope ++ "\n")
  | .check request => do
    let j ← readDocument content request
    let q ← duringQuery s!"Invalid request in {request}" (Request.ofJson s j)
    .ok (report q)

/-- Runs an invocation. -/
def perform (content : String → FileContent) (env : Environment) (i : Invocation) : Outcome :=
  match (settingsOf content env i.settingsPath).bind fun s => outputOf content s i.command with
  | .ok output => { output }
  | .error failure => failure.outcome i.verbosity

/-- A reminder of the command line. -/
def usage : String :=
  "Shape JSON record sets with data-grid query requests\n\n"
    ++ "Usage: gridquery [OPTIONS] run --data <FILE> --request <FILE> [--pretty]\n"
    ++ "       gridquery [OPTIONS] check --request <FILE>\n\n"
    ++ "Options:\n"
    ++ "  -v, --verbose        Enable verbose output\n"
    ++ "  -c, --config <FILE>  Path to a shaping configuration file (TOML)\n"
    ++ "  -h, --help           Print help\n"
    ++ "  -V, --version        Print version\n"

/-- Runs the program with arguments. -/
def program (content : String → FileContent) (env : Environment) (args : List String) : Outcome :=
  match parse args with
  | .invocation i => perform content env i
  | .help => { output := usage }
  | .version => { output := "gridquery 0.1.0\n" }
  | .misuse => { messages := [usage], exitCode := 2 }

end RecordQuery.CommandLine
