import RecordQuery.Json

/-!
# Wire requests

A request as a data grid sends it: operators and directions are names that have not been looked up
yet, and what is left out is not filled in.
-/

namespace RecordQuery

/-- A filter as it is sent. One with predicates, or that is marked as complex, joins the predicates
by its condition. -/
structure WireFilter where
  field : Option String := none
  operator : Option String := none
  value : Json := .null
  ignoreCase : Option Bool := none
  isComplex : Bool := false
  condition : Option String := none
  predicates : Option (List WireFilter) := none

/-- A search as it is sent. -/
structure WireSearch where
  fields : Option (List String) := none
  key : Json := .null
  operator : Option String := none
  ignoreCase : Option Bool := none

/-- A sort key as it is sent. -/
structure WireSort where
  name : String
  direction : Option String := none

/-- An aggregate as it is sent. -/
structure WireAggregate where
  field : String
  type : String

/-- A request as it is sent. -/
structure WireRequest where
  skip : Option Int64 := none
  take : Option Int64 := none
  requiresCounts : Bool := false
  filters : Option (List WireFilter) := none
  search : Option (List WireSearch) := none
  /-- The last key counts most. -/
  sorted : Option (List WireSort) := none
  group : Option (List String) := none
  aggregates : Option (List WireAggregate) := none
  isLazyLoad : Bool := false
  lazyExpandAllGroup : Bool := false
  groupPaging : Bool := false
  distinct : Option String := none
  select : Option (List String) := none

/-! ## Names of members, in the order of an array that stands for an object -/

def WireFilter.memberNames : List String :=
  ["field", "operator", "value", "ignoreCase", "isComplex", "condition", "predicates"]

def WireSearch.memberNames : List String := ["fields", "key", "operator", "ignoreCase"]

def WireSort.memberNames : List String := ["name", "direction"]

def WireAggregate.memberNames : List String := ["field", "type"]

def WireRequest.memberNames : List String :=
  ["skip", "take", "requiresCounts", "where", "search", "sorted", "group", "aggregates",
    "isLazyLoad", "lazyExpandAllGroup", "groupPaging", "distinct", "select"]

end RecordQuery
