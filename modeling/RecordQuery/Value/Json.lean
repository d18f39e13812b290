import RecordQuery.Json
import RecordQuery.Value

/-!
# Values and JSON

* `Value.toDocument` is the JSON of a value with every number at its own width;
* `Value.toJson` is the same with numbers of 32 bits widened, which shows more digits of them;
* `Value.ofJson` reads a value. Integers beyond 64 bits with sign become binary numbers.
-/

namespace RecordQuery

namespace Value

/-- The JSON of an enum value: the name of its member for the outside, or else its number. -/
def enumJson (descriptor : EnumDescriptor) (value : Int64) : Json :=
  match descriptor.byValue value with
  | some m => .string m.displayName
  | none => .integer value.toInt

mutual

/-- The JSON of a value. Decimals are written as binary numbers and dates as stamps. -/
def toDocument : Value → Json
  | .null => .null
  | .bool b => .bool b
  | .int16 n => .integer n.toInt
  | .int32 n => .integer n.toInt
  | .int64 n => .integer n.toInt
  | .float32 x => .single x
  | .float64 x => .double x
  | .decimal d => .double d.toDouble
  | .string s => .string s
  | .guid g => .string g.display
  | .dateTime t => .string t.stamp
  | .dateTimeOffset t => .string t.canonical
  | .enum descriptor value => enumJson descriptor value
  | .list items => .array (documents items)
  | .object fields => .object (memberDocuments fields)

def documents : List Value → List Json
  | [] => []
  | v :: vs => v.toDocument :: documents vs

def memberDocuments : List (String × Value) → List (String × Json)
  | [] => []
  | (name, v) :: rest => (name, v.toDocument) :: memberDocuments rest

end

end Value

namespace Json

mutual

/-- The document with every number of 32 bits widened; NaN and the infinities become null. -/
def widened : Json → Json
  | .single x => if x.isFinite then .double (x.convert .double) else .null
  | .double x => if x.isFinite then .double x else .null
  | .array items => .array (widenedItems items)
  | .object members => .object (widenedMembers members)
  | j => j

def widenedItems : List Json → List Json
  | [] => []
  | item :: items => item.widened :: widenedItems items

def widenedMembers : List (String × Json) → List (String × Json)
  | [] => []
  | (name, value) :: members => (name, value.widened) :: widenedMembers members

end

end Json

namespace Value

/-- The JSON of a value with every number of 32 bits widened. -/
def toJson (v : Value) : Json := v.toDocument.widened

mutual

/-- The value of a document. -/
def ofJson : Json → Value
  | .null => .null
  | .bool b => .bool b
  | .integer n =>
    match int64? n with
    | some n => .int64 n
    | none => .float64 (.ofInt .double n)
  | .single x => .float32 x
  | .double x => .float64 x
  | .string s => .string s
  | .array items => .list (ofItems items)
  | .object members => .object (Fields.ofList (ofMembers members))

def ofItems : List Json → List Value
  | [] => []
  | item :: items => ofJson item :: ofItems items

def ofMembers : List (String × Json) → List (String × Value)
  | [] => []
  | (name, value) :: members => (name, ofJson value) :: ofMembers members

end

end Value

end RecordQuery
