import RecordQuery.Calendar.Writer
import RecordQuery.Fields
import RecordQuery.Number.Decimal.Conversion
import RecordQuery.Value.Guid
import RecordQuery.Value.Kind

/-!
# Values

What a field of a record holds. Values are read from records of any representation, and the rest of
the library compares, prints and converts them by the rules in this folder.

* `Value.kind?` is the kind of a value; null has none;
* `Value.toInt?`, `Value.toDouble?` and `Value.toDecimal?` read numbers of any kind;
* `Value.member?` is the child that a path segment names.
-/

namespace RecordQuery

/-- A value. -/
inductive Value
  | null
  | bool (b : Bool)
  | int16 (n : Int16)
  | int32 (n : Int32)
  | int64 (n : Int64)
  | float32 (x : Single)
  | float64 (x : Double)
  | decimal (d : Decimal)
  | string (s : String)
  | guid (g : Guid)
  | dateTime (t : LocalDateTime)
  | dateTimeOffset (t : OffsetDateTime)
  /-- A number of an enumeration, which need not be the number of a member. -/
  | enum (descriptor : EnumDescriptor) (value : Int64)
  | list (items : List Value)
  /-- Fields in the order of their names. -/
  | object (fields : List (String × Value))
  deriving Inhabited

namespace Value

def isNull : Value → Bool
  | .null => true
  | _ => false

/-- The kind of a value. -/
def kind? : Value → Option FieldKind
  | .null => none
  | .bool _ => some .bool
  | .int16 _ => some .int16
  | .int32 _ => some .int32
  | .int64 _ => some .int64
  | .float32 _ => some .float32
  | .float64 _ => some .float64
  | .decimal _ => some .decimal
  | .string _ => some .string
  | .guid _ => some .guid
  | .dateTime _ => some .dateTime
  | .dateTimeOffset _ => some .dateTimeOffset
  | .enum descriptor _ => some (.enum descriptor)
  | .list _ => some .list
  | .object _ => some .object

/-- The type of a value. -/
def type? (v : Value) : Option TypeInfo := v.kind?.map .of

/-- A short name of the form of a value. Integers of all widths share one, and so do binary
numbers. -/
def tag : Value → String
  | .null => "null"
  | .bool _ => "bool"
  | .int16 _ | .int32 _ | .int64 _ => "int"
  | .float32 _ | .float64 _ => "float"
  | .decimal _ => "decimal"
  | .string _ => "string"
  | .guid _ => "guid"
  | .dateTime _ => "datetime"
  | .dateTimeOffset _ => "datetimeoffset"
  | .enum _ _ => "enum"
  | .list _ => "list"
  | .object _ => "object"

def isNumeric : Value → Bool
  | .int16 _ | .int32 _ | .int64 _ | .float32 _ | .float64 _ | .decimal _ => true
  | _ => false

/-- Whether a value has children. -/
def isContainer : Value → Bool
  | .list _ | .object _ => true
  | _ => false

def toString? : Value → Option String
  | .string s => some s
  | _ => none

def toBool? : Value → Option Bool
  | .bool b => some b
  | _ => none

/-- The integer of an integer kind. -/
def toInt? : Value → Option Int64
  | .int16 n => some n.toInt64
  | .int32 n => some n.toInt64
  | .int64 n => some n
  | _ => none

/-- A number as a binary number of 64 bits. -/
def toDouble? : Value → Option Double
  | .int16 n => some (.ofInt .double n.toInt)
  | .int32 n => some (.ofInt .double n.toInt)
  | .int64 n => some (.ofInt .double n.toInt)
  | .float32 x => some (x.convert .double)
  | .float64 x => some x
  | .decimal d => some d.toDouble
  | _ => none

/-- A number as a decimal, if it is in range. -/
def toDecimal? : Value → Option Decimal
  | .int16 n => some (.ofInt64 n.toInt64)
  | .int32 n => some (.ofInt64 n.toInt64)
  | .int64 n => some (.ofInt64 n)
  | .float32 x => Decimal.ofBinary? x
  | .float64 x => Decimal.ofBinary? x
  | .decimal d => some d
  | _ => none

/-- A date as universal time; a time on the wall stands for itself. -/
def instant? : Value → Option LocalDateTime
  | .dateTime t => some t
  | .dateTimeOffset t => some t.instant
  | _ => none

/-- The time of a date on its own clock. -/
def wall? : Value → Option LocalDateTime
  | .dateTime t => some t
  | .dateTimeOffset t => some t.wall
  | _ => none

/-- The day of a date on its own clock. -/
def day? (v : Value) : Option Date := v.wall?.map (·.date)

/-- Whether a date is the start of a day on its own clock. -/
def isMidnight (v : Value) : Bool :=
  match v.wall? with
  | some t => t.isMidnight
  | none => false

/-- A date in universal time with milliseconds. -/
def canonicalDate? (v : Value) : Option String := v.instant?.map (·.canonical)

/-- The child that a path segment names: a field of an object, or a position in a list. -/
def member? (segment : String) : Value → Option Value
  | .object fields => Fields.get? segment fields
  | .list items => (readIndex? segment).bind (items[·]?)
  | _ => none

/-- The first member of its enumeration that has the number of an enum value. -/
def enumMember? : Value → Option EnumMember
  | .enum descriptor value => descriptor.byValue value
  | _ => none

end Value

end RecordQuery
