import RecordQuery.Calendar.Literal
import RecordQuery.ErrorCode
import RecordQuery.Number.Decimal.Reader
import RecordQuery.Value.Display
import RecordQuery.Value.Order

/-!
# Coercion

Fitting a loosely typed value, mostly a text from a request, to the type of a field. Coercion is
strict: a text that is not empty and cannot be read as the type is an error.

* `coerce`: null, and the empty text for any type but text, become null; a value of the right kind
  is kept; types that say nothing accept every value;
* `coerceForComparison`: the same, but against integers a fraction is kept, so that a comparison
  with 15.5 is not one with 16;
* `resolveEnum?`: the number that a value names in an enumeration.
-/

namespace RecordQuery

open Text

/-- Why a value does not fit a type. -/
inductive CoercionError
  | guid (input : String)
  | date (input target : String)
  | enum (input target : String)
  | numeric (input target : String)
  | bool (input : String)
  | nullNotAllowed (target : String)
  | unsupported (input target : String)
  deriving DecidableEq

namespace CoercionError

def code : CoercionError → Nat
  | .guid _ => ErrorCode.guid
  | .date _ _ => ErrorCode.date
  | .enum _ _ => ErrorCode.enum
  | .numeric _ _ => ErrorCode.numeric
  | .bool _ => ErrorCode.bool
  | .nullNotAllowed _ => ErrorCode.coercion
  | .unsupported _ _ => ErrorCode.unsupported

/-- The name of the type. -/
def target : CoercionError → String
  | .guid _ => "Guid"
  | .bool _ => "Boolean"
  | .date _ target | .enum _ target | .numeric _ target | .nullNotAllowed target
  | .unsupported _ target => target

def message : CoercionError → String
  | .guid input => s!"'{input}' is not a valid Guid"
  | .date input target => s!"'{input}' is not a valid {target}"
  | .enum input target => s!"'{input}' does not name a member of {target}"
  | .numeric input target => s!"'{input}' is not a valid {target}"
  | .bool input => s!"'{input}' is not a valid Boolean"
  | .nullNotAllowed target => s!"null cannot be assigned to non-nullable {target}"
  | .unsupported input target => s!"{target} does not accept the literal '{input}'"

end CoercionError

/-! ## Enumerations -/

/-- The number that a text names: a display name first, then an identifier, then a numeral. -/
def EnumDescriptor.resolve? (d : EnumDescriptor) (text : String) : Option Int64 :=
  let text := trim text.toList
  match d.lookup (.ofList text) with
  | some m => some m.value
  | none =>
    match d.byName (.ofList text) with
    | some m => some m.value
    | none => (readInt? text).bind int64?

/-- The number that a value names in an enumeration. -/
def resolveEnum? (raw : Value) (d : EnumDescriptor) : Option Int64 :=
  match raw with
  | .enum e value => if e = d then some value else none
  | .string text => d.resolve? text
  | other => other.toInt?

/-! ## Numbers -/

/-- An integer as a number of a kind, if it is in range. -/
def integerTo? (n : Int64) : FieldKind → Option Value
  | .int16 => (int16? n.toInt).map .int16
  | .int32 => (int32? n.toInt).map .int32
  | .int64 => some (.int64 n)
  | .float32 => some (.float32 (.ofInt .single n.toInt))
  | .float64 => some (.float64 (.ofInt .double n.toInt))
  | .decimal => some (.decimal (.ofInt64 n))
  | _ => none

/-- Reads a numeral as a number of a kind. -/
def readNumeral? (cs : List Char) : FieldKind → Option Value
  | .int16 => ((readInt? cs).bind int16?).map .int16
  | .int32 => ((readInt? cs).bind int32?).map .int32
  | .int64 => ((readInt? cs).bind int64?).map .int64
  | .float32 => (Binary.read? .single cs).map .float32
  | .float64 => (Binary.read? .double cs).map .float64
  | .decimal => (Decimal.read? cs).map .decimal
  | _ => none

/-- The 64-bit integer nearest a binary number, a half going to the even neighbour. `2 ^ 63` itself
is taken for the greatest integer. -/
def nearestInt64? (x : Double) : Option Int64 :=
  x.nearestInt?.bind fun n => if n = 0x8000000000000000 then some Int64.maxValue else int64? n

/-- A number as a number of another kind. Fractions are rounded where the kind holds integers. -/
def convertNumber? (v : Value) (kind : FieldKind) : Option Value :=
  match kind with
  | .int16 | .int32 | .int64 =>
    let integer := match v.toInt? with
      | some n => some n
      | none => v.toDouble?.bind nearestInt64?
    integer.bind fun n => integerTo? n kind
  | .float32 => v.toDouble?.map fun x => .float32 (x.convert .single)
  | .float64 => v.toDouble?.map .float64
  | .decimal => v.toDecimal?.map .decimal
  | _ => none

/-- A value as a number of a kind. -/
def toNumber? (raw : Value) (kind : FieldKind) : Option Value :=
  match raw with
  | .string text => readNumeral? (trim text.toList) kind
  | .bool b => integerTo? (if b then 1 else 0) kind
  | .enum _ n => integerTo? n kind
  | v => if v.isNumeric then convertNumber? v kind else none

/-! ## Single targets -/

def coerceNumber (raw : Value) (kind : FieldKind) : Except CoercionError Value :=
  match toNumber? raw kind with
  | some v => .ok v
  | none => .error (.numeric raw.display kind.name)

def coerceGuid (raw : Value) : Except CoercionError Value :=
  match raw with
  | .string text =>
    match Guid.read? (trim text.toList) with
    | some g => .ok (.guid g)
    | none => .error (.guid text)
  | other => .error (.guid other.display)

def coerceDate (raw : Value) (kind : FieldKind) : Except CoercionError DateLiteral :=
  match raw with
  | .dateTime t => .ok (.wall t)
  | .dateTimeOffset t => .ok (.zoned t)
  | .string text =>
    match DateLiteral.read? text with
    | some d => .ok d
    | none => .error (.date text kind.name)
  | other => .error (.date other.display kind.name)

def coerceBool (raw : Value) : Except CoercionError Value :=
  match raw with
  | .string text =>
    let word := (trim text.toList).map asciiLowerChar
    if word = "true".toList then .ok (.bool true)
    else if word = "false".toList then .ok (.bool false)
    else .error (.bool text)
  | other =>
    match other.toDouble? with
    | some x => .ok (.bool !x.isZero)
    | none => .error (.bool other.display)

def coerceEnum (raw : Value) (d : EnumDescriptor) : Except CoercionError Value :=
  match resolveEnum? raw d with
  | some n => .ok (.enum d n)
  | none => .error (.enum raw.display d.name)

/-! ## Any target -/

/-- Fits a value that is neither null nor of the kind already. -/
def coerceTo (raw : Value) (kind : FieldKind) : Except CoercionError Value :=
  match kind with
  | .unknown | .object | .list => .ok raw
  | .string => .ok (.string raw.display)
  | .guid => coerceGuid raw
  | .dateTime => (coerceDate raw kind).map fun d => .dateTime d.universal
  | .dateTimeOffset => (coerceDate raw kind).map fun d => .dateTimeOffset d.toOffset
  | .enum d => coerceEnum raw d
  | .bool => coerceBool raw
  | .int16 | .int32 | .int64 | .float32 | .float64 | .decimal => coerceNumber raw kind

/-- Whether a value stands for null in a field of a kind: null itself, and the empty text unless
the field holds texts. -/
def standsForNull (raw : Value) (kind : FieldKind) : Bool :=
  match raw with
  | .null => true
  | .string text => text == "" && kind != .string
  | _ => false

/-- Fits a value to a type. -/
def coerce (raw : Value) (target : TypeInfo) : Except CoercionError Value :=
  if standsForNull raw target.kind then .ok .null
  else if raw.kind? = some target.kind then .ok raw
  else coerceTo raw target.kind

/-- The number that a value keeps in a comparison with integers, if it is not an integer itself: a
binary number or a decimal with a fraction, or a text that reads as a finite number and not as an
integer. -/
def fractionalLiteral? (raw : Value) : Option Value :=
  match raw with
  | .float32 x => if x.isIntegral then none else some (.float64 (x.convert .double))
  | .float64 x => if x.isIntegral then none else some raw
  | .decimal d => if d.isIntegral then none else some raw
  | .string text =>
    let cs := trim text.toList
    match (readInt? cs).bind int64? with
    | some _ => none
    | none => ((Binary.read? .double cs).filter (·.isFinite)).map .float64
  | _ => none

/-- Fits the literal of a comparison to the type of the field. -/
def coerceForComparison (raw : Value) (target : TypeInfo) : Except CoercionError Value :=
  match (if target.kind.isInteger then fractionalLiteral? raw else none) with
  | some fraction => .ok fraction
  | none => coerce raw target

/-- A date literal in universal time with milliseconds. -/
def normalizeDate (text : String) : Except CoercionError String :=
  match DateLiteral.read? text with
  | some d => .ok d.canonical
  | none => .error (.date text FieldKind.dateTime.name)

end RecordQuery
