import RecordQuery.Settings
import RecordQuery.Toml.Reader

/-!
# Reading settings

Settings come from a TOML document, and two of them can be overridden by the environment.

* `Settings.ofToml?` takes the settings from a document; keys of other names do not count;
* `Settings.ofText` reads and validates the text of a document;
* `Settings.load` starts from a file, if there is one, and then applies the environment.
-/

namespace RecordQuery

/-- What is found at the path of a file. -/
inductive FileContent
  | missing
  /-- There is something, but not a text. -/
  | unreadable
  | text (s : String)
  deriving DecidableEq

/-- The variables that override settings, where they are set. -/
structure Environment where
  ignoreCase : Option String := none
  sampleLimit : Option String := none
  deriving DecidableEq

namespace Settings

/-- A setting of a document: the value that was read, or what it is without. -/
def setting? {α : Type} (read : Toml → Option α) (fallback : α) (key : String)
    (entries : Toml.Entries) : Option α :=
  match Fields.get? key entries with
  | none => some fallback
  | some v => read v

def boolSetting? : Toml → Option Bool
  | .bool b => some b
  | _ => none

def textSetting? : Toml → Option String
  | .text s => some s
  | _ => none

/-- A natural number of 64 bits. -/
def limitSetting? : Toml → Option (Option Nat)
  | .integer n => if 0 ≤ n ∧ n < UInt64.size then some (some n.toNat) else none
  | _ => none

/-- The settings in a document. -/
def ofToml? (entries : Toml.Entries) : Option Settings := do
  let base : Settings := {}
  some {
    ignoreCase := ← setting? boolSetting? base.ignoreCase "default_ignore_case" entries
    blankMarker := ← setting? textSetting? base.blankMarker "blank_marker" entries
    nullGroupKey := ← setting? textSetting? base.nullGroupKey "null_group_key" entries
    sampleLimit := ← setting? limitSetting? base.sampleLimit "type_sample_limit" entries
    searchOperator :=
      ← setting? textSetting? base.searchOperator "default_search_operator" entries }

/-- Reads and validates the text of a document. -/
def ofText (text : String) : Except QueryError Settings :=
  match (Toml.read? text).bind ofToml? with
  | none => .error (.of .malformedSettings)
  | some s => s.validate

/-- Reads a truth value as the environment writes it. -/
def readFlag? : String → Option Bool
  | "true" => some true
  | "false" => some false
  | _ => none

/-- The settings with the variables that are set and can be read. -/
def override (env : Environment) (s : Settings) : Settings where
  ignoreCase := (env.ignoreCase.bind readFlag?).getD s.ignoreCase
  blankMarker := s.blankMarker
  nullGroupKey := s.nullGroupKey
  sampleLimit :=
    match env.sampleLimit.bind readIndex? with
    | some n => some n
    | none => s.sampleLimit
  searchOperator := s.searchOperator

/-- The settings of a file. Only a file that is required has to be there. -/
def ofFile (path : String) (required : Bool) : FileContent → Except QueryError Settings
  | .text s => ofText s
  | .unreadable => .error (.of (.settingsUnreadable path))
  | .missing => if required then .error (.of (.settingsNotFound path)) else .ok {}

/-- The settings of a file, if one is named, and of the environment. -/
def load (source : Option (String × FileContent)) (required : Bool) (env : Environment) :
    Except QueryError Settings := do
  let s ← match source with
    | some (path, content) => ofFile path required content
    | none => .ok {}
  (s.override env).validate

end Settings

end RecordQuery
