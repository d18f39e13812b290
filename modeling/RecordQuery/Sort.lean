import RecordQuery.Error
import RecordQuery.Record.Resolve
import RecordQuery.Value.Order

/-!
# Sorting

Records are sorted by a list of keys, the first of which counts most. Sorting is stable: records
that agree in all keys stay in order.

* `SortKey.parseList` reads a specification such as `CustomerID, OrderID desc`;
* `compareKeys` orders lists of key values, `sortRecords` sorts records.
-/

namespace RecordQuery

open Text

inductive SortDirection
  | ascending
  | descending
  deriving DecidableEq

namespace SortDirection

/-- The name in requests. -/
def name : SortDirection → String
  | .ascending => "ascending"
  | .descending => "descending"

/-- Reads a direction, in any case and with white space around it; the empty one is ascending. -/
def parse? (text : String) : Option SortDirection :=
  match asciiLower (trimmed text) with
  | "" => some .ascending
  | "asc" => some .ascending
  | "ascending" => some .ascending
  | "desc" => some .descending
  | "descending" => some .descending
  | _ => none

/-- Reads a direction; a field may be named in the error. -/
def parse (text : String) (field : Option String) : Except QueryError SortDirection :=
  match parse? text with
  | some direction => .ok direction
  | none => .error (.of (.unknownDirection text field))

/-- An order in a direction. -/
def apply : SortDirection → Ordering → Ordering
  | .ascending, o => o
  | .descending, o => o.swap

end SortDirection

/-- A field to sort by. -/
structure SortKey where
  field : FieldPath
  direction : SortDirection := .ascending
  /-- The order of the values, where it is not the natural one. -/
  comparer : Option (Value → Value → Ordering) := none

namespace SortKey

/-- The order of two values of the field. -/
def compare (key : SortKey) (a b : Value) : Ordering :=
  key.direction.apply (match key.comparer with
    | some order => order a b
    | none => a.sortCompare b)

/-- Reads a part of a specification: a field and perhaps a direction. A blank part is no key. -/
def parse (part : List Char) : Except QueryError (Option SortKey) :=
  match words part with
  | [] => .ok none
  | [field] => .ok (some { field := .parse (.ofList field) })
  | [field, direction] =>
    (SortDirection.parse (.ofList direction) (some (.ofList field))).map fun direction =>
      some { field := .parse (.ofList field), direction }
  | field :: _ =>
    .error (.of (.malformedClause (.surplusTokens (.ofList (trim part))) (some (.ofList field))))

/-- Reads parts of a specification one by one. -/
def parseParts : List (List Char) → Except QueryError (List SortKey)
  | [] => .ok []
  | part :: parts =>
    (parse part).bind fun key => (parseParts parts).map fun keys => key.toList ++ keys

/-- Reads a specification. -/
def parseList (spec : String) : Except QueryError (List SortKey) :=
  parseParts (splitOn ',' spec.toList)

/-- The key in a specification. -/
def text (key : SortKey) : String :=
  match key.direction with
  | .ascending => key.field.text
  | .descending => s!"{key.field.text} desc"

end SortKey

/-- The order of two lists of key values: that of the first values that differ. -/
def compareKeys : List SortKey → List Value → List Value → Ordering
  | key :: keys, a :: as, b :: bs => (key.compare a b).then (compareKeys keys as bs)
  | _, _, _ => .eq

/-- The values of the keys in a record. -/
def keyValues (keys : List SortKey) (r : Record) : List Value :=
  keys.map fun key => r.valueAt key.field

/-- Sorts records by keys. The values of the keys are read once for every record. -/
def sortRecords (keys : List SortKey) (records : List Record) : List Record :=
  ((records.map fun r => (keyValues keys r, r)).mergeSort fun a b =>
    compareKeys keys a.1 b.1 != .gt).map (·.2)

end RecordQuery
