import RecordQuery.Wire

/-!
# Writing wire requests

All members are written, null where nothing was sent. `WireRequest.ofJson?` reads them back.
-/

namespace RecordQuery

namespace Wire

/-- A member that may be missing. -/
def ofOption {α : Type} (write : α → Json) : Option α → Json
  | none => .null
  | some a => write a

def ofTexts (texts : List String) : Json := .array (texts.map .string)

/-- An object with the given members. -/
def ofNamed (names : List String) (members : List Json) : Json :=
  .ofMembers (names.zip members)

end Wire

open Wire

mutual

/-- Writes a filter with all that is nested in it. -/
def WireFilter.toJson : WireFilter → Json
  | ⟨field, operator, value, ignoreCase, isComplex, condition, predicates⟩ =>
    ofNamed WireFilter.memberNames
      [ofOption .string field, ofOption .string operator, value, ofOption .bool ignoreCase,
        .bool isComplex, ofOption .string condition, WireFilter.optionalToJson predicates]

def WireFilter.optionalToJson : Option (List WireFilter) → Json
  | none => .null
  | some filters => .array (WireFilter.listToJson filters)

def WireFilter.listToJson : List WireFilter → List Json
  | [] => []
  | filter :: filters => filter.toJson :: WireFilter.listToJson filters

end

def WireSearch.toJson (s : WireSearch) : Json :=
  ofNamed WireSearch.memberNames
    [ofOption ofTexts s.fields, s.key, ofOption .string s.operator, ofOption .bool s.ignoreCase]

def WireSort.toJson (s : WireSort) : Json :=
  ofNamed WireSort.memberNames [.string s.name, ofOption .string s.direction]

def WireAggregate.toJson (a : WireAggregate) : Json :=
  ofNamed WireAggregate.memberNames [.string a.field, .string a.type]

/-- Writes a request. -/
def WireRequest.toJson (q : WireRequest) : Json :=
  let integer (n : Int64) : Json := .integer n.toInt
  ofNamed WireRequest.memberNames
    [ofOption integer q.skip, ofOption integer q.take, .bool q.requiresCounts,
      WireFilter.optionalToJson q.filters,
      ofOption (fun l => .array (l.map WireSearch.toJson)) q.search,
      ofOption (fun l => .array (l.map WireSort.toJson)) q.sorted, ofOption ofTexts q.group,
      ofOption (fun l => .array (l.map WireAggregate.toJson)) q.aggregates, .bool q.isLazyLoad,
      .bool q.lazyExpandAllGroup, .bool q.groupPaging, ofOption .string q.distinct,
      ofOption ofTexts q.select]

end RecordQuery
