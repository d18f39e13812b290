import RecordQuery.Pipeline
import RecordQuery.Wire.Request

/-!
# Running a wire request over a document

The document is an array of rows. A flat result is cut down to the selected fields, if the request
selects any.
-/

namespace RecordQuery

/-- The rows of a document. -/
def rowsOf : Json → Except QueryError (List Record)
  | .array rows => .ok (rows.map .json)
  | .null => .error (.of (.nullArgument "dataSource"))
  | _ =>
    .error ((QueryError.of (.nullArgument "dataSource")).withContext
      "the data source must be a JSON array")

/-- The request of a document, which may not be null. -/
def requestOf (settings : Settings) : Json → Except QueryError Request
  | .null => .error (.of (.nullArgument "request"))
  | j => Request.ofJson settings j

/-- A flat result cut down to fields. -/
def QueryResult.selecting (fields : List String) (r : QueryResult) : QueryResult :=
  if fields.isEmpty then r
  else match r.result with
    | .records rows =>
      { r with result := .records ((select fields rows).map fun v => .json v.toJson) }
    | .grouped _ => r

/-- Runs a wire request over a document. -/
def executeJson (settings : Settings) (data request : Json) : Except QueryError QueryResult := do
  let rows ← rowsOf data
  let q ← requestOf settings request
  .ok ((execute settings rows q).selecting q.select)

end RecordQuery
