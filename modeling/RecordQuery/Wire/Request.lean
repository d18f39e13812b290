import RecordQuery.Request
import RecordQuery.Value.Json
import RecordQuery.Wire.Reader

/-!
# From wire requests to requests

Every name is looked up, and what was left out is filled in from the settings. The first thing that
is wrong is the error: the joiner, then the filters, the searches, the sort keys, and the paging.

* `WireRequest.toRequest` is the conversion;
* `Request.ofJson` and `Request.ofText` read and convert.
-/

namespace RecordQuery

/-- A condition that may be left out; it is `and` then. -/
def Joiner.ofCondition : Option String → Except QueryError Joiner
  | some condition => Joiner.parse condition
  | none => .ok .and

/-- A text that is given and not blank. -/
def filledText : Option String → Option String
  | some text => if Text.isBlankText text then none else some text
  | none => none

namespace WireFilter

/-- A comparison, which needs a field and a known operator. -/
def toSimple (settings : Settings) (field : Option String) (operator : String) (value : Json)
    (ignoreCase : Option Bool) : Except QueryError FilterClause :=
  match filledText field with
  | none => .error (.of (.malformedClause .noField none))
  | some field =>
    (Operator.parse operator (some field)).map fun operator =>
      .simple ⟨field, operator, .ofJson value, ignoreCase.getD settings.ignoreCase⟩

mutual

/-- Converts a filter with all that is nested in it. -/
def toClause (settings : Settings) : WireFilter → Except QueryError FilterClause
  | ⟨field, operator, value, ignoreCase, isComplex, condition, predicates⟩ =>
    let nested := isComplex || predicates.any fun filters => !filters.isEmpty
    match filledText operator, nested with
    | some _, true => .error (.of (.malformedClause .operatorAndPredicates field))
    | none, false => .error (.of (.malformedClause .neither field))
    | some operator, false => toSimple settings field operator value ignoreCase
    | none, true =>
      match Joiner.ofCondition condition with
      | .error e => .error e
      | .ok joiner => (optionalToClauses settings predicates).map (.composite joiner)

def optionalToClauses (settings : Settings) :
    Option (List WireFilter) → Except QueryError (List FilterClause)
  | none => .ok []
  | some filters => toClauses settings filters

/-- Converts filters one by one. -/
def toClauses (settings : Settings) : List WireFilter → Except QueryError (List FilterClause)
  | [] => .ok []
  | filter :: filters =>
    match toClause settings filter with
    | .error e => .error e
    | .ok clause => (toClauses settings filters).map (clause :: ·)

end

end WireFilter

/-- Converts a search; without an operator it has that of the settings. -/
def WireSearch.toClause (settings : Settings) (s : WireSearch) : Except QueryError SearchClause :=
  let name := (filledText s.operator).getD settings.searchOperator
  (Operator.parse name none).map fun operator =>
    ⟨s.fields.getD [], .ofJson s.key, operator, s.ignoreCase.getD settings.ignoreCase⟩

/-- Converts a sort key; without a direction it is ascending. -/
def WireSort.toKey (s : WireSort) : Except QueryError SortKey :=
  match s.direction with
  | none => .ok { field := .parse s.name }
  | some direction =>
    (SortDirection.parse direction (some s.name)).map fun direction =>
      { field := .parse s.name, direction }

def WireAggregate.toAggregate (a : WireAggregate) : Aggregate := ⟨a.field, .parse a.type⟩

/-- A number of records to skip or to take. Zero means that none was given. -/
def pagingNumber (name : String) : Option Int64 → Except QueryError (Option Nat)
  | none => .ok none
  | some n =>
    if n.toInt < 0 then .error (.of (.negativePaging name n.toInt))
    else if n.toInt = 0 then .ok none
    else .ok (some n.toInt.toNat)

/-- Converts a request. -/
def WireRequest.toRequest (settings : Settings) (w : WireRequest) : Except QueryError Request := do
  let wireFilters := w.filters.getD []
  let joiner ← Joiner.ofCondition (wireFilters.head?.bind (·.condition))
  let filters ← WireFilter.toClauses settings wireFilters
  let search ← (w.search.getD []).mapM (WireSearch.toClause settings)
  let sort ← (w.sorted.getD []).mapM WireSort.toKey
  let skip ← pagingNumber "skip" w.skip
  let take ← pagingNumber "take" w.take
  .ok {
    filters
    joiner
    search
    sort := sort.reverse
    group := w.group.getD []
    skip := skip.getD 0
    take
    aggregates := (w.aggregates.getD []).map WireAggregate.toAggregate
    requiresCounts := w.requiresCounts
    lazyLoad := w.isLazyLoad
    expandAll := w.lazyExpandAllGroup
    groupPaging := w.groupPaging
    distinct := filledText w.distinct
    select := w.select.getD [] }

namespace Request

/-- Converts a wire request that was read. -/
def ofWire (settings : Settings) : Option WireRequest → Except QueryError Request
  | none => .error (.of .malformedRequest)
  | some w => w.toRequest settings

/-- The request of a document. -/
def ofJson (settings : Settings) (j : Json) : Except QueryError Request :=
  ofWire settings (WireRequest.ofJson? j)

/-- The request of a text. -/
def ofText (settings : Settings) (text : String) : Except QueryError Request :=
  ofWire settings (WireRequest.ofText? text)

end Request

end RecordQuery
