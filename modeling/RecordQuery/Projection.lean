import RecordQuery.Record.Resolve
import RecordQuery.Value.Display

/-!
# Distinct records and selected fields

* `distinct` keeps the first record for every key of a field. A record that is not static must have
  the first name of the field;
* `select` reads a list of fields of every record.
-/

namespace RecordQuery

/-- The key of a value among distinct values. -/
def distinctKey (v : Value) : String := if v.isNull then "null" else v.display

/-- Whether a record can be kept for the field that starts with a name. -/
def isEligible (root : String) (r : Record) : Bool := r.isStatic || (r.member? root).isSome

/-- The first record for every key that was not seen before. -/
def firstOfKeys (path : FieldPath) (root : String) : List String → List Record → List Record
  | _, [] => []
  | seen, r :: rest =>
    let key := distinctKey (r.valueAt path)
    if !isEligible root r || seen.contains key then firstOfKeys path root seen rest
    else r :: firstOfKeys path root (key :: seen) rest

/-- The first record for every key of a field. Without a field all are kept. -/
def distinct (field : String) (records : List Record) : List Record :=
  let path := FieldPath.parse field
  match path.root? with
  | none => records
  | some root => firstOfKeys path root [] records

/-- The values of fields in a record, by the paths of the fields. -/
def selectFrom (paths : List FieldPath) (r : Record) : Value :=
  .object (Fields.ofList (paths.map fun path => (path.text, r.valueAt path)))

/-- The values of fields in every record. -/
def select (fields : List String) (records : List Record) : List Value :=
  records.map (selectFrom (fields.map .parse))

end RecordQuery
