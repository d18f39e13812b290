import RecordQuery.Filter.Clause

/-!
# Settings

What a request leaves open: whether case counts, the markers for blank texts and null keys, how many
records are asked for the type of a field, and the operator of searches.

`Settings.validate` accepts exactly the settings that the engine can work with.
-/

namespace RecordQuery

/-- The settings of the engine. -/
structure Settings where
  /-- Whether clauses ignore case unless they say otherwise. -/
  ignoreCase : Bool := true
  /-- The text that null stands for where texts are compared with null. -/
  blankMarker : String := "blanks"
  /-- The key of the group of nulls. -/
  nullGroupKey : String := "null"
  /-- How many records at most are asked for the type of a field. -/
  sampleLimit : Option Nat := none
  /-- The operator of searches that name none. -/
  searchOperator : String := "contains"
  deriving DecidableEq

namespace Settings

/-- The first thing that is wrong with the settings, by the key of the setting. -/
def defect? (s : Settings) : Option (String × String) :=
  if s.blankMarker = "" then some ("blank_marker", "must not be empty")
  else if s.nullGroupKey = "" then some ("null_group_key", "must not be empty")
  else if s.sampleLimit = some 0 then some ("type_sample_limit", "must be at least 1 when set")
  else if (Operator.parse? s.searchOperator).isNone then
    some ("default_search_operator", "is not a known operator")
  else none

/-- The settings, if the engine can work with them. -/
def validate (s : Settings) : Except QueryError Settings :=
  match s.defect? with
  | none => .ok s
  | some (key, reason) => .error (.of (.invalidSetting key reason))

end Settings

end RecordQuery
