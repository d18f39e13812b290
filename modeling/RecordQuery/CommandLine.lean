/-!
# The command line

Two commands, with options before and behind them:

    run --data FILE --request FILE [--pretty]
    check --request FILE

and for both `--verbose`, as often as wanted, and `--config FILE`. Options have short names, which
can be written together, and their values can follow an equals sign.

* `Switch` lists the options, and `Level` the places where they may stand;
* `CommandLine.parse` reads the arguments.
-/

namespace RecordQuery.CommandLine

/-- An option. -/
inductive Switch
  | verbose
  | config
  | data
  | request
  | pretty
  | help
  | version
  deriving DecidableEq

namespace Switch

def longName : Switch → String
  | .verbose => "verbose"
  | .config => "config"
  | .data => "data"
  | .request => "request"
  | .pretty => "pretty"
  | .help => "help"
  | .version => "version"

def shortName? : Switch → Option Char
  | .verbose => some 'v'
  | .config => some 'c'
  | .data => some 'd'
  | .request => some 'r'
  | .pretty => none
  | .help => some 'h'
  | .version => some 'V'

/-- Whether the option is followed by a value. -/
def takesValue : Switch → Bool
  | .config | .data | .request => true
  | _ => false

end Switch

/-- Where options stand: before the command, or behind it. -/
inductive Level
  | top
  | run
  | check
  deriving DecidableEq

/-- The options that may stand at a place. -/
def Level.switches : Level → List Switch
  | .top => [.verbose, .config, .help, .version]
  | .run => [.verbose, .config, .data, .request, .pretty, .help]
  | .check => [.verbose, .config, .request, .help]

/-- What a run is asked to do. -/
inductive Command
  | run (data request : String) (pretty : Bool)
  | check (request : String)
  deriving DecidableEq

/-- A complete command line. -/
structure Invocation where
  verbosity : Nat
  settingsPath : Option String
  command : Command
  deriving DecidableEq

/-- What arguments amount to. -/
inductive Parsed
  | invocation (i : Invocation)
  | help
  | version
  /-- The arguments are not a command line. -/
  | misuse
  deriving DecidableEq

/-- The options read so far at one place. -/
structure Given where
  verbosity : Nat := 0
  config : Option String := none
  data : Option String := none
  request : Option String := none
  pretty : Bool := false

namespace Given

/-- Sets a value, which may be set once and may not be empty. -/
def setOnce (current : Option String) (v : String) : Option (Option String) :=
  if current.isSome || v.isEmpty then none else some (some v)

/-- Takes the value of an option. -/
def withValue (g : Given) (v : String) : Switch → Option Given
  | .config => (setOnce g.config v).map fun config => { g with config }
  | .data => (setOnce g.data v).map fun data => { g with data }
  | .request => (setOnce g.request v).map fun request => { g with request }
  | _ => none

/-- Takes an option without a value. -/
def withFlag (g : Given) : Switch → Option Given
  | .verbose => some { g with verbosity := g.verbosity + 1 }
  | .pretty => if g.pretty then none else some { g with pretty := true }
  | _ => none

end Given

/-- What an argument amounts to. -/
inductive Step
  /-- The argument is complete. -/
  | done (g : Given)
  /-- The argument is an option whose value is the next argument. -/
  | awaits (s : Switch) (g : Given)
  | stop (p : Parsed)

/-- A change that may be refused. -/
def Step.ofOption : Option Given → Step
  | some g => .done g
  | none => .stop .misuse

/-- An option without a value. -/
def readFlag (g : Given) : Switch → Step
  | .help => .stop .help
  | .version => .stop .version
  | s => .ofOption (g.withFlag s)

/-- An option with a long name, and its value if that is part of the argument. -/
def readLong (level : Level) (g : Given) (name : String) (v : Option String) : Step :=
  match level.switches.find? (·.longName == name), v with
  | none, _ => .stop .misuse
  | some s, some v => if s.takesValue then .ofOption (g.withValue v s) else .stop .misuse
  | some s, none => if s.takesValue then .awaits s g else readFlag g s

/-- Options with short names, written together. The rest behind one with a value is its value. -/
def readShort (level : Level) (g : Given) : List Char → Step
  | [] => .done g
  | c :: cs =>
    match level.switches.find? (·.shortName? == some c) with
    | none => .stop .misuse
    | some s =>
      if s.takesValue then
        match cs with
        | [] => .awaits s g
        | '=' :: v => .ofOption (g.withValue (.ofList v) s)
        | v => .ofOption (g.withValue (.ofList v) s)
      else match readFlag g s with
        | .done g => readShort level g cs
        | step => step

/-- The name of a long option and the value behind an equals sign. -/
def cutValue (cs : List Char) : String × Option String :=
  match cs.dropWhile (· != '=') with
  | [] => (.ofList cs, none)
  | _ :: v => (.ofList (cs.takeWhile (· != '=')), some (.ofList v))

/-- Whether an argument is written as an option. A dash alone is not. -/
def isOption (arg : String) : Bool :=
  match arg.toList with
  | '-' :: _ :: _ => true
  | _ => false

/-- An argument that is written as an option. -/
def readOption (level : Level) (g : Given) (arg : String) : Step :=
  match arg.toList with
  | '-' :: '-' :: cs =>
    let (name, v) := cutValue cs
    readLong level g name v
  | '-' :: cs => readShort level g cs
  | _ => .stop .misuse

/-- The options of both places; those behind the command count more. -/
def assemble (before behind : Given) (command : Command) : Parsed :=
  .invocation {
    verbosity := if behind.verbosity = 0 then before.verbosity else behind.verbosity
    settingsPath := behind.config.or before.config
    command }

/-- The command of a place with its options, if none is missing. -/
def finish (before : Given) (level : Level) (behind : Given) : Parsed :=
  match level, behind.data, behind.request with
  | .run, some data, some request => assemble before behind (.run data request behind.pretty)
  | .check, _, some request => assemble before behind (.check request)
  | _, _, _ => .misuse

/-- Reads arguments behind a command. Two dashes end the options, and nothing may follow them. -/
def readBehind (before : Given) (level : Level) (g : Given) : List String → Parsed
  | [] => finish before level g
  | arg :: rest =>
    if arg = "--" then (if rest.isEmpty then finish before level g else .misuse)
    else if !isOption arg then .misuse
    else match readOption level g arg with
      | .stop p => p
      | .done g => readBehind before level g rest
      | .awaits s g =>
        match rest with
        | [] => .misuse
        | v :: rest =>
          if isOption v then .misuse
          else match g.withValue v s with
            | some g => readBehind before level g rest
            | none => .misuse

/-- The names of the commands. -/
def commandNames : List String := ["run", "check", "help"]

/-- Reads arguments from the front. -/
def readTop (g : Given) : List String → Parsed
  | [] => .misuse
  | arg :: rest =>
    if isOption arg then
      match (if arg = "--" then .stop .misuse else readOption .top g arg) with
      | .stop p => p
      | .done g => readTop g rest
      | .awaits s g =>
        match rest with
        | [] => .misuse
        | v :: rest =>
          if isOption v then .misuse
          else match g.withValue v s with
            | some g => readTop g rest
            | none => .misuse
    else if arg = "run" then readBehind g .run {} rest
    else if arg = "check" then readBehind g .check {} rest
    else if arg = "help" then
      match rest with
      | [] => .help
      | [name] => if commandNames.contains name then .help else .misuse
      | _ => .misuse
    else .misuse

/-- Reads the arguments of the program. -/
def parse (args : List String) : Parsed := readTop {} args

end RecordQuery.CommandLine
