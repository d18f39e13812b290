import RecordQuery.Json.Writer
import RecordQuery.Value.Json

/-!
# The text of a value

`Value.display` is how a value is shown, searched and told apart from others in a group. Numbers are
written in full, lists and objects as JSON, and null as nothing.
-/

namespace RecordQuery.Value

/-- The text of an enum value: the name of its member for the outside, or else its number. -/
def enumText (descriptor : EnumDescriptor) (value : Int64) : String :=
  match descriptor.byValue value with
  | some m => m.displayName
  | none => intText value.toInt

/-- The text of a value. -/
def display : Value → String
  | .null => ""
  | .bool b => if b then "true" else "false"
  | .int16 n => intText n.toInt
  | .int32 n => intText n.toInt
  | .int64 n => intText n.toInt
  | .float32 x => x.display
  | .float64 x => x.display
  | .decimal d => d.display
  | .string s => s
  | .guid g => g.display
  | .dateTime t => t.display
  | .dateTimeOffset t => t.display
  | .enum descriptor value => enumText descriptor value
  | .list items => (Value.list items).toJson.compact
  | .object fields => (Value.object fields).toJson.compact

end RecordQuery.Value
