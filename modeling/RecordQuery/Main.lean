import RecordQuery.CommandLine.Program

/-!
# The executable

Reads the files that the command line names, runs the program, and prints what it leaves behind.
-/

namespace RecordQuery.CommandLine

/-- What is at the path of a file. -/
def fetch (path : String) : IO FileContent := do
  try
    pure (.text (← IO.FS.readFile path))
  catch e =>
    match e with
    | .noFileOrDirectory .. => pure .missing
    | _ => pure .unreadable

/-- The files that arguments name, with what is in them. -/
def fetchAll (args : List String) : IO (List (String × FileContent)) :=
  match parse args with
  | .invocation i => (files i).mapM fun path => do pure (path, ← fetch path)
  | _ => pure []

/-- Runs the program in the environment of the process. -/
def execute (args : List String) : IO UInt32 := do
  let fetched ← fetchAll args
  let env : Environment := {
    ignoreCase := ← IO.getEnv "GRIDQUERY_IGNORE_CASE"
    sampleLimit := ← IO.getEnv "GRIDQUERY_TYPE_SAMPLE_LIMIT" }
  let outcome := program (fun path => (Fields.get? path fetched).getD .missing) env args
  IO.print outcome.output
  for message in outcome.messages do
    IO.eprintln message
  pure (UInt32.ofNat outcome.exitCode)

end RecordQuery.CommandLine

def main (args : List String) : IO UInt32 := RecordQuery.CommandLine.execute args
