import RecordQuery.Record.Resolve

/-!
# The types of fields

Filters, searches and aggregates fit their literals to the type of a field. A structure declares
it; in other records it is sampled, record by record:

* numbers widen the kind, and go on to the next record;
* any other value decides, unless numbers were seen before it;
* nulls say nothing, and a member that a static record does not have means that there is no field.

`FieldTypes` remembers what was found out, path by path, so the records that are asked first
decide for all later ones.

* `fieldType?` is the type over a list of records;
* `FieldTypes.resolve` is the same with memory.
-/

namespace RecordQuery

/-- What one record says about the type of a field. -/
inductive Sample
  | declared (type : TypeInfo)
  | seen (kind : FieldKind)
  | null
  | missing
  deriving DecidableEq

namespace Sample

/-- What a value says. -/
def ofValue (v : Value) : Sample :=
  match v.kind? with
  | some kind => .seen kind
  | none => .null

/-- What a record says about its member. -/
def ofMember (r : Record) (name : String) : Sample :=
  match (if r.isStatic then r.declaredType? name else none) with
  | some type => .declared type
  | none =>
    match r.lookup? name with
    | some m => .ofValue m.toValue
    | none => if r.isStatic then .missing else .null

/-- What a record says about a field. -/
def ofRecord (path : FieldPath) (r : Record) : Sample :=
  match path.leaf? with
  | none => .missing
  | some name =>
    match r.parent path with
    | .record parent => ofMember parent name
    | .tree v => .ofValue ((v.member? name).getD .null)
    | .intermediateNull => .null
    | .missing => .missing

end Sample

/-- The type that is concluded from samples, after numbers of a kind have been seen. `none` means
that there is no such field. -/
def settleType (numeric : Option FieldKind) : List Sample → Option TypeInfo
  | [] =>
    match numeric with
    | some kind => some ⟨kind, true⟩
    | none => some .unknown
  | .declared type :: _ => some type
  | .null :: samples => settleType numeric samples
  | .missing :: samples =>
    match numeric with
    | none => none
    | some _ => settleType numeric samples
  | .seen kind :: samples =>
    match numeric with
    | none => if kind.isNumeric then settleType (some kind) samples else some ⟨kind, true⟩
    | some seen => settleType (some (if kind.isNumeric then seen.widen kind else seen)) samples

/-- The first records of a list, all of them without a limit. -/
def sampledRecords (limit : Option Nat) (records : List Record) : List Record :=
  match limit with
  | none => records
  | some n => records.take n

/-- The type of a field over a list of records, of which at most `limit` are asked. -/
def fieldType? (limit : Option Nat) (records : List Record) (path : FieldPath) : Option TypeInfo :=
  if path.isEmpty then none
  else settleType none ((sampledRecords limit records).map (Sample.ofRecord path))

/-- What is known of the types of fields. -/
structure FieldTypes where
  /-- How many records are asked at most. -/
  limit : Option Nat
  /-- The types found so far by the texts of their paths; `none` where there is no field. -/
  known : List (String × Option TypeInfo) := []

namespace FieldTypes

/-- The type of a field: as it is known, or else over the given records. -/
def typeOf? (types : FieldTypes) (records : List Record) (path : FieldPath) : Option TypeInfo :=
  match Fields.get? path.text types.known with
  | some known => known
  | none => fieldType? types.limit records path

/-- The type of a field, which is remembered. -/
def resolve (records : List Record) (path : FieldPath) : StateM FieldTypes (Option TypeInfo) :=
  fun types =>
    match Fields.get? path.text types.known with
    | some known => (known, types)
    | none =>
      let type := fieldType? types.limit records path
      (type, { types with known := (path.text, type) :: types.known })

/-- What is found is what was known, or what the records say. -/
theorem resolve_fst (types : FieldTypes) (records : List Record) (path : FieldPath) :
    (resolve records path types).1 = types.typeOf? records path := by
  simp only [resolve, typeOf?]
  split <;> rfl

end FieldTypes

end RecordQuery
