/-!
# Kinds of values

* `EnumDescriptor` lists the members of an enumeration, each with an identifier, an optional name
  for the outside and a number. Numbers need not be distinct;
* `FieldKind` is the kind of a value, `TypeInfo` the kind of a field and whether it may be null;
* `FieldKind.widen` is the narrowest numeric kind for values of two numeric kinds.
-/

namespace RecordQuery

/-- A member of an enumeration. -/
structure EnumMember where
  name : String
  /-- The name for the outside, where it is not the identifier. -/
  wireName : Option String
  value : Int64
  deriving DecidableEq

/-- The name for the outside: the wire name, or else the identifier. -/
def EnumMember.displayName (m : EnumMember) : String := m.wireName.getD m.name

/-- An enumeration. -/
structure EnumDescriptor where
  name : String
  members : List EnumMember
  deriving DecidableEq

namespace EnumDescriptor

/-- The first member with a display name. -/
def lookup (d : EnumDescriptor) (text : String) : Option EnumMember :=
  d.members.find? (·.displayName = text)

/-- The first member with an identifier. -/
def byName (d : EnumDescriptor) (name : String) : Option EnumMember :=
  d.members.find? (·.name = name)

/-- The first member with a number. -/
def byValue (d : EnumDescriptor) (value : Int64) : Option EnumMember :=
  d.members.find? (·.value = value)

end EnumDescriptor

/-- The kind of a value other than null. -/
inductive FieldKind
  | bool
  | int16
  | int32
  | int64
  | float32
  | float64
  | decimal
  | string
  | guid
  | dateTime
  | dateTimeOffset
  | enum (descriptor : EnumDescriptor)
  | list
  | object
  /-- Nothing is known of the values. -/
  | unknown
  deriving DecidableEq

namespace FieldKind

/-- The name of a kind in messages. -/
def name : FieldKind → String
  | .bool => "Boolean"
  | .int16 => "Int16"
  | .int32 => "Int32"
  | .int64 => "Int64"
  | .float32 => "Single"
  | .float64 => "Double"
  | .decimal => "Decimal"
  | .string => "String"
  | .guid => "Guid"
  | .dateTime => "DateTime"
  | .dateTimeOffset => "DateTimeOffset"
  | .enum descriptor => descriptor.name
  | .list => "List"
  | .object => "Object"
  | .unknown => "Unknown"

/-- The place of a numeric kind among the numeric kinds, from the narrowest. -/
def width? : FieldKind → Option Nat
  | .int16 => some 0
  | .int32 => some 1
  | .int64 => some 2
  | .float32 => some 3
  | .float64 => some 4
  | .decimal => some 5
  | _ => none

def isNumeric (k : FieldKind) : Bool := k.width?.isSome

def isInteger : FieldKind → Bool
  | .int16 | .int32 | .int64 => true
  | _ => false

def isDate : FieldKind → Bool
  | .dateTime | .dateTimeOffset => true
  | _ => false

/-- The enumeration of an enum kind. -/
def descriptor? : FieldKind → Option EnumDescriptor
  | .enum descriptor => some descriptor
  | _ => none

/-- The narrowest numeric kind that holds the values of both. Numbers of 32 bits do not hold every
integer of 32 or 64 bits, so these meet at 64 bits. A kind that is not numeric, or meets one that
is not, stays as it is. -/
def widen (a b : FieldKind) : FieldKind :=
  match a.width?, b.width? with
  | some m, some n =>
    let (low, high) := if m ≤ n then (a, b) else (b, a)
    if high = .float32 ∧ (low = .int32 ∨ low = .int64) then .float64 else high
  | _, _ => a

end FieldKind

/-- The type of a field. -/
structure TypeInfo where
  kind : FieldKind
  nullable : Bool := false
  deriving DecidableEq

namespace TypeInfo

/-- A type whose values are never null. -/
def of (kind : FieldKind) : TypeInfo := ⟨kind, false⟩

/-- The same kind with nulls. -/
def orNull (t : TypeInfo) : TypeInfo := ⟨t.kind, true⟩

/-- The type of a field of which no value is known. -/
def unknown : TypeInfo := ⟨.unknown, true⟩

end TypeInfo

end RecordQuery
