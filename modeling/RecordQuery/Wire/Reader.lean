import RecordQuery.Json.Reader
import RecordQuery.Wire

/-!
# Reading wire requests

A structure is read from an object, where members of other names do not count and no member may
occur twice, or from an array with the members in order, where the last ones may be left out.
Members that do not count may hold anything, parts without a value included; `anything?` reads a
member that counts and refuses those.

* `structureMembers?` gives the members of a structure in order;
* `WireRequest.ofJson?` reads a request, `WireRequest.ofText?` reads it from a text.
-/

namespace RecordQuery

namespace Wire

/-- The members of a structure in the order of their names, where they are given. -/
def structureMembers? (names : List String) : Json → Option (List (Option Json))
  | .object members =>
    if names.any fun name => 1 < members.countP (·.1 == name) then none
    else some (names.map (Fields.get? · members))
  | .array items =>
    if names.length < items.length then none
    else some (items.map some ++ List.replicate (names.length - items.length) none)
  | _ => none

/-! ## Single members -/

def readText? : Json → Option String
  | .string s => some s
  | _ => none

def readBool? : Json → Option Bool
  | .bool b => some b
  | _ => none

def readInt64? : Json → Option Int64
  | .integer n => int64? n
  | _ => none

/-- A list, read item by item. -/
def readList? {α : Type} (read : Json → Option α) : Json → Option (List α)
  | .array items => items.mapM read
  | _ => none

/-- A member that may be null or left out. -/
def optional? {α : Type} (read : Json → Option α) : Option Json → Option (Option α)
  | none => some none
  | some .null => some none
  | some j => (read j).map some

/-- A member that is false if it is left out. -/
def flag? : Option Json → Option Bool
  | none => some false
  | some j => readBool? j

/-- A member that may hold any document, as long as all parts of it have a value. -/
def anything? (j : Option Json) : Option Json :=
  let j := j.getD .null
  if j.isReadable then some j.ordered else none

end Wire

open Wire

/-! ## Structures -/

/-- A filter from its members, with its predicates read. -/
def WireFilter.ofMembers? (predicates : Option (List WireFilter)) :
    List (Option Json) → Option WireFilter
  | [field, operator, value, ignoreCase, isComplex, condition, _] => do
    some {
      field := ← optional? readText? field
      operator := ← optional? readText? operator
      value := ← anything? value
      ignoreCase := ← optional? readBool? ignoreCase
      isComplex := ← flag? isComplex
      condition := ← optional? readText? condition
      predicates }
  | _ => none

mutual

/-- Reads a filter with all that is nested in it. -/
def WireFilter.ofJson? : Json → Option WireFilter
  | .object members => do
    let predicates ← WireFilter.predicatesNamed? members
    WireFilter.ofMembers? predicates (← structureMembers? WireFilter.memberNames (.object members))
  | .array items => do
    let predicates ← WireFilter.predicatesAt? 6 items
    WireFilter.ofMembers? predicates (← structureMembers? WireFilter.memberNames (.array items))
  | _ => none

/-- The predicates among the members of an object. -/
def WireFilter.predicatesNamed? : List (String × Json) → Option (Option (List WireFilter))
  | [] => some none
  | (name, j) :: members =>
    if name = "predicates" then WireFilter.optionalList? j else WireFilter.predicatesNamed? members

/-- The predicates at a position of an array. -/
def WireFilter.predicatesAt? : Nat → List Json → Option (Option (List WireFilter))
  | _, [] => some none
  | 0, j :: _ => WireFilter.optionalList? j
  | n + 1, _ :: items => WireFilter.predicatesAt? n items

/-- Reads a list of filters that may be null. -/
def WireFilter.optionalList? : Json → Option (Option (List WireFilter))
  | .null => some none
  | .array items => (WireFilter.ofItems? items).map some
  | _ => none

/-- Reads filters one by one. -/
def WireFilter.ofItems? : List Json → Option (List WireFilter)
  | [] => some []
  | j :: items => do
    let filter ← WireFilter.ofJson? j
    let filters ← WireFilter.ofItems? items
    some (filter :: filters)

end

/-- Reads a search. -/
def WireSearch.ofJson? (j : Json) : Option WireSearch := do
  match ← structureMembers? WireSearch.memberNames j with
  | [fields, key, operator, ignoreCase] =>
    some {
      fields := ← optional? (readList? readText?) fields
      key := ← anything? key
      operator := ← optional? readText? operator
      ignoreCase := ← optional? readBool? ignoreCase }
  | _ => none

/-- Reads a sort key, which needs a name. -/
def WireSort.ofJson? (j : Json) : Option WireSort := do
  match ← structureMembers? WireSort.memberNames j with
  | [name, direction] =>
    some { name := ← readText? (← name), direction := ← optional? readText? direction }
  | _ => none

/-- Reads an aggregate, which needs a field and a type. -/
def WireAggregate.ofJson? (j : Json) : Option WireAggregate := do
  match ← structureMembers? WireAggregate.memberNames j with
  | [field, type] => some { field := ← readText? (← field), type := ← readText? (← type) }
  | _ => none

/-- Reads a request. -/
def WireRequest.ofJson? (j : Json) : Option WireRequest := do
  match ← structureMembers? WireRequest.memberNames j with
  | [skip, take, requiresCounts, filters, search, sorted, group, aggregates, isLazyLoad,
      lazyExpandAllGroup, groupPaging, distinct, select] =>
    some {
      skip := ← optional? readInt64? skip
      take := ← optional? readInt64? take
      requiresCounts := ← flag? requiresCounts
      filters := ← optional? (readList? WireFilter.ofJson?) filters
      search := ← optional? (readList? WireSearch.ofJson?) search
      sorted := ← optional? (readList? WireSort.ofJson?) sorted
      group := ← optional? (readList? readText?) group
      aggregates := ← optional? (readList? WireAggregate.ofJson?) aggregates
      isLazyLoad := ← flag? isLazyLoad
      lazyExpandAllGroup := ← flag? lazyExpandAllGroup
      groupPaging := ← flag? groupPaging
      distinct := ← optional? readText? distinct
      select := ← optional? (readList? readText?) select }
  | _ => none

/-- Reads a request from a text. -/
def WireRequest.ofText? (text : String) : Option WireRequest :=
  (Json.readText? Json.maxDepth text).bind WireRequest.ofJson?

end RecordQuery
