import RecordQuery.Value.Coercion

/-!
# Values in typed fields

A field of a declared type takes what can be coerced to the type, and null only if it is nullable.

* `Value.fitKind` fits a value to a kind, without null;
* `Value.fitField` fits a value to a type;
* `EnumDescriptor.number` is the number that a value stands for in a field of an enumeration.
-/

namespace RecordQuery

namespace Value

/-- Fits a value to a kind. What coercion leaves at another kind is refused. -/
def fitKind (kind : FieldKind) (raw : Value) : Except CoercionError Value :=
  match coerce raw (.of kind) with
  | .error e => .error e
  | .ok .null => .error (.nullNotAllowed kind.name)
  | .ok v => if v.kind? = some kind then .ok v else .error (.unsupported v.display kind.name)

/-- Fits a value to the type of a field. -/
def fitField (type : TypeInfo) (raw : Value) : Except CoercionError Value :=
  if type.nullable then
    match coerce raw type with
    | .error e => .error e
    | .ok .null => .ok .null
    | .ok v => fitKind type.kind v
  else fitKind type.kind raw

end Value

/-- The number that a value stands for in a field of an enumeration. It need not be the number of a
member. -/
def EnumDescriptor.number (d : EnumDescriptor) (raw : Value) : Except CoercionError Int64 :=
  match coerce raw (.of (.enum d)) with
  | .error e => .error e
  | .ok (.enum _ n) => .ok n
  | .ok _ => .error (.nullNotAllowed d.name)

end RecordQuery
