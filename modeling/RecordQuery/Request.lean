import RecordQuery.Group
import RecordQuery.Search
import RecordQuery.Sort

/-!
# Requests

Everything that one run does to a list of records, with every name resolved.

* `Request.groupOptions`: what the request wants of groups;
* `Request.summary`: one line for every stage that does something.
-/

namespace RecordQuery

/-- A request. -/
structure Request where
  filters : List FilterClause := []
  /-- Joins the filters. -/
  joiner : Joiner := .and
  /-- Searches, all of which must pass. -/
  search : List SearchClause := []
  /-- Sort keys; the first counts most. -/
  sort : List SortKey := []
  group : List String := []
  skip : Nat := 0
  take : Option Nat := none
  aggregates : List Aggregate := []
  requiresCounts : Bool := false
  lazyLoad : Bool := false
  expandAll : Bool := false
  /-- Whether pages are pages of groups, and not of records. -/
  groupPaging : Bool := false
  distinct : Option String := none
  select : List String := []
  /-- Display formats of group keys, by field. -/
  formats : List (String × String) := []

namespace Request

def groupOptions (q : Request) : GroupOptions where
  aggregates := q.aggregates
  lazyLoad := q.lazyLoad
  expandAll := q.expandAll
  formats := q.formats

/-- Whether the request asks for a page. -/
def isPaged (q : Request) : Bool := 0 < q.skip || q.take.isSome

/-- A natural number as a text. -/
def natText (n : Nat) : String := String.ofList (Text.natDigits n)

/-- Texts with a separator between them. -/
def joined (separator : String) (texts : List String) : String :=
  String.ofList (Text.join separator.toList (texts.map String.toList))

/-- A line that is there only on a condition. -/
def lineIf (condition : Bool) (line : String) : List String := if condition then [line] else []

def searchLine (clause : SearchClause) : String :=
  let fields := joined ", " clause.fields
  s!"search: {clause.operator.name} '{clause.key.display}' in [{fields}]"

def pageLine (q : Request) : String :=
  let size := match q.take with
    | some n => natText n
    | none => "all"
  s!"page: skip {natText q.skip} take {size}"

def groupLine (q : Request) : String :=
  let unit := if q.groupPaging then "groups" else "rows"
  let fields := joined " > " q.group
  s!"group: {fields} (paging {unit})"

/-- One line for every stage that does something. -/
def summary (q : Request) : List String :=
  lineIf (!q.filters.isEmpty)
      s!"filter: {natText q.filters.length} clause(s) joined by {q.joiner.title}"
    ++ q.search.map searchLine
    ++ lineIf (!q.sort.isEmpty) ("sort: " ++ joined ", " (q.sort.map SortKey.text))
    ++ q.distinct.toList.map (fun field => s!"distinct: {field}")
    ++ lineIf q.isPaged q.pageLine
    ++ lineIf (!q.group.isEmpty) q.groupLine
    ++ lineIf (!q.aggregates.isEmpty)
      ("aggregates: " ++ joined ", " (q.aggregates.map Aggregate.label))
    ++ lineIf q.requiresCounts "count: yes"

end Request

end RecordQuery
