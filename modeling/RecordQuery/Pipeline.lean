import RecordQuery.Projection
import RecordQuery.Request

/-!
# Running a request

The stages follow one another in a fixed order: filter, search, sort, distinct, count, aggregates,
page, group. Where pages are pages of groups, grouping comes before paging.

All stages share what is known of the types of fields, so a field keeps the type that it had for the
first stage that asked.

* `execute` runs a request over records; `execute?` refuses a missing list or request.
-/

namespace RecordQuery

/-- What a request yields. -/
structure QueryResult where
  result : DataSet
  /-- The number of records, or of groups, before paging. -/
  count : Option Nat
  aggregates : Option (List (String × Value))

/-- A part of a list. -/
def page {α : Type} (skip : Nat) (take : Option Nat) (items : List α) : List α :=
  let rest := items.drop skip
  match take with
  | some n => rest.take n
  | none => rest

namespace Pipeline

/-- The records that pass the filters. -/
def filtered (settings : Settings) (q : Request) (source : List Record) :
    StateM FieldTypes (List Record) :=
  if q.filters.isEmpty then pure source
  else do
    let predicate ← FilterClause.compileAll settings source q.joiner q.filters
    pure (source.filter predicate)

/-- The records that pass the searches. -/
def searched (settings : Settings) (q : Request) (records : List Record) :
    StateM FieldTypes (List Record) :=
  if q.search.isEmpty then pure records
  else do
    let predicate ← SearchClause.compileAll settings records q.search
    pure (records.filter predicate)

/-- The records in the order of the request, one for every distinct key. -/
def arranged (q : Request) (records : List Record) : List Record :=
  let sorted := sortRecords q.sort records
  match q.distinct with
  | some field => RecordQuery.distinct field sorted
  | none => sorted

/-- The aggregates of all records, if any are asked for. -/
def aggregated (settings : Settings) (q : Request) (records : List Record) :
    StateM FieldTypes (Option (List (String × Value))) :=
  if q.aggregates.isEmpty then pure none
  else do pure (some (← Aggregate.computeAll settings records q.aggregates))

/-- The page of a request, with the number of groups where groups are paged. -/
def paged (settings : Settings) (q : Request) (records : List Record) :
    StateM FieldTypes (DataSet × Option Nat) :=
  if q.group.isEmpty then pure (.records (page q.skip q.take records), none)
  else if q.groupPaging then do
    match ← Grouping.groupAll settings q.groupOptions (.records records) q.group with
    | .grouped set =>
      pure (.grouped { set with groups := page q.skip q.take set.groups }, some set.groups.length)
    | .records items => pure (.records items, none)
  else do
    let data := .records (page q.skip q.take records)
    pure (← Grouping.groupAll settings q.groupOptions data q.group, none)

/-- All stages. -/
def run (settings : Settings) (q : Request) (source : List Record) :
    StateM FieldTypes QueryResult := do
  let records ← filtered settings q source
  let records ← searched settings q records
  let records := arranged q records
  let aggregates ← aggregated settings q records
  let (result, groups) ← paged settings q records
  let count := if q.requiresCounts then some (groups.getD records.length) else none
  pure { result, count, aggregates }

end Pipeline

/-- Runs a request over records. -/
def execute (settings : Settings) (source : List Record) (q : Request) : QueryResult :=
  (Pipeline.run settings q source { limit := settings.sampleLimit }).1

/-- Runs a request, where neither the records nor the request may be missing. -/
def execute? (settings : Settings) (source : Option (List Record)) (q : Option Request) :
    Except QueryError QueryResult :=
  match source, q with
  | none, _ => .error (.of (.nullArgument "dataSource"))
  | some _, none => .error (.of (.nullArgument "request"))
  | some source, some q => .ok (execute settings source q)

end RecordQuery
