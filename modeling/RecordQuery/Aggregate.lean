import RecordQuery.Filter
import RecordQuery.Value.Order

/-!
# Aggregates

An aggregate reduces a field of a list of records to one value, or to none where it does not apply.

* counts: all records, or those whose field equals true or false;
* extremes: by the order of sorting, the first of equal least values and the last of equal greatest;
* sums and averages: in the narrowest numeric kind for the type and all values of the field. A sum
  out of range is no value.
-/

namespace RecordQuery

open Text

inductive AggregateKind
  | count
  | sum
  | average
  | min
  | max
  | trueCount
  | falseCount
  /-- A name that stands for no aggregate. -/
  | unsupported (name : String)
  deriving DecidableEq

namespace AggregateKind

def name : AggregateKind → String
  | .count => "Count"
  | .sum => "Sum"
  | .average => "Average"
  | .min => "Min"
  | .max => "Max"
  | .trueCount => "TrueCount"
  | .falseCount => "FalseCount"
  | .unsupported name => name

/-- The kinds that have a name. -/
def supported : List AggregateKind := [.count, .sum, .average, .min, .max, .trueCount, .falseCount]

def isSupported : AggregateKind → Bool
  | .unsupported _ => false
  | _ => true

/-- Reads a name, in any case and with white space around it. -/
def parse (text : String) : AggregateKind :=
  match supported.find? fun kind => asciiLower kind.name == asciiLower (trimmed text) with
  | some kind => kind
  | none => .unsupported text

end AggregateKind

/-- An aggregate of a field. -/
structure Aggregate where
  field : String
  kind : AggregateKind
  deriving DecidableEq

namespace Aggregate

/-- The name of the result in a group. -/
def groupLabel (a : Aggregate) : String := s!"{a.field} - {a.kind.name}"

/-- The name of the result for all records. -/
def label (a : Aggregate) : String := s!"{a.field} - {lower a.kind.name}"

/-! ## Extremes -/

/-- The first of the least values. -/
def least : List Value → Value
  | [] => .null
  | v :: vs => vs.foldl (fun best v => if best.sortCompare v == .gt then v else best) v

/-- The last of the greatest values. -/
def greatest : List Value → Value
  | [] => .null
  | v :: vs => vs.foldl (fun best v => if best.sortCompare v == .gt then best else v) v

/-! ## Sums -/

def sumInt32 (vs : List Value) : Option Value :=
  ((vs.filterMap fun v => v.toInt?.bind fun n => int32? n.toInt).foldlM
    (fun (sum n : Int32) => int32? (sum.toInt + n.toInt)) 0).map .int32

def sumInt64 (vs : List Value) : Option Value :=
  ((vs.filterMap Value.toInt?).foldlM
    (fun (sum n : Int64) => int64? (sum.toInt + n.toInt)) 0).map .int64

/-- Numbers of any kind in 32 bits. -/
def singles (vs : List Value) : List Single :=
  vs.filterMap fun v => v.toDouble?.map (Binary.convert .single)

/-- Numbers of any kind in 64 bits. -/
def doubles (vs : List Value) : List Double := vs.filterMap Value.toDouble?

def sumDecimals (ds : List Decimal) : Option Decimal := ds.foldlM Decimal.add? .zero

/-- The sum in a kind. -/
def sumIn (vs : List Value) : FieldKind → Option Value
  | .int16 | .int32 => sumInt32 vs
  | .int64 => sumInt64 vs
  | .float32 => some (.float32 (.sum (singles vs)))
  | .float64 => some (.float64 (.sum (doubles vs)))
  | .decimal => (sumDecimals (vs.filterMap Value.toDecimal?)).map .decimal
  | _ => none

/-! ## Averages -/

/-- The mean of binary numbers; null if there are none. -/
def meanOf {f : Format} (make : Binary f → Value) (xs : List (Binary f)) : Value :=
  if xs.isEmpty then .null else make ((Binary.sum xs).div (.ofInt f xs.length))

/-- The mean of integers, from their exact sum. -/
def averageIntegers (ns : List Int64) : Value :=
  if ns.isEmpty then .null
  else
    let sum := ns.foldl (fun sum n => sum + n.toInt) 0
    .float64 ((Binary.ofInt .double sum).div (.ofInt .double ns.length))

def averageDecimals (ds : List Decimal) : Option Value :=
  if ds.isEmpty then some .null
  else (sumDecimals ds).bind fun sum => (sum.divNat? ds.length).map .decimal

/-- The average in a kind. -/
def averageIn (vs : List Value) : FieldKind → Option Value
  | .int16 | .int32 | .int64 => some (averageIntegers (vs.filterMap Value.toInt?))
  | .float32 => some (meanOf .float32 (singles vs))
  | .float64 => some (meanOf .float64 (doubles vs))
  | .decimal => averageDecimals (vs.filterMap Value.toDecimal?)
  | _ => none

/-! ## All aggregates -/

/-- The kind in which the values of a field of a kind are added. -/
def workingKind (kind : FieldKind) (vs : List Value) : FieldKind :=
  (vs.filterMap Value.kind?).foldl
    (fun kind seen => if kind = .unknown then seen else kind.widen seen) kind

/-- The values of a field that are not null. -/
def valuesAt (path : FieldPath) (records : List Record) : List Value :=
  (records.map (·.valueAt path)).filter (!·.isNull)

/-- Reduces the values of a field of a type. -/
def reduce (kind : AggregateKind) (type : TypeInfo) (vs : List Value) : Option Value :=
  match kind with
  | .min => some (least vs)
  | .max => some (greatest vs)
  | .sum => sumIn vs (workingKind type.kind vs)
  | .average => averageIn vs (workingKind type.kind vs)
  | _ => none

/-- A number of records as a value. -/
def countValue (n : Nat) : Value := .int64 (Int64.ofNat n)

/-- The number of records whose field equals true or false. -/
def countEqual (settings : Settings) (records : List Record) (field : String) (expected : Bool) :
    StateM FieldTypes Value := do
  let clause : SimpleClause := ⟨field, .equals, .bool expected, true⟩
  let predicate ← clause.compile settings records
  pure (countValue (records.countP predicate))

/-- Computes an aggregate. -/
def compute (settings : Settings) (records : List Record) (a : Aggregate) :
    StateM FieldTypes (Option Value) :=
  match a.kind with
  | .count => pure (some (countValue records.length))
  | .trueCount => do pure (some (← countEqual settings records a.field true))
  | .falseCount => do pure (some (← countEqual settings records a.field false))
  | .unsupported _ => pure none
  | kind => do
    let path := FieldPath.parse a.field
    let type ← FieldTypes.resolve records path
    pure (type.bind fun type => reduce kind type (valuesAt path records))

/-- Computes aggregates one by one, and names those that apply. -/
def computeNamed (settings : Settings) (records : List Record) (name : Aggregate → String) :
    List Aggregate → StateM FieldTypes (List (String × Value))
  | [] => pure []
  | a :: rest => do
    let value ← a.compute settings records
    let named ← computeNamed settings records name rest
    pure ((value.map fun v => (name a, v)).toList ++ named)

/-- The aggregates of all records. There are none of no records. -/
def computeAll (settings : Settings) (records : List Record) (aggregates : List Aggregate) :
    StateM FieldTypes (Fields Value) :=
  if records.isEmpty then pure []
  else do pure (Fields.ofList (← computeNamed settings records label aggregates))

/-- The aggregates of a group. -/
def computeGroup (settings : Settings) (records : List Record) (aggregates : List Aggregate) :
    StateM FieldTypes (Fields Value) := do
  pure (Fields.ofList (← computeNamed settings records groupLabel aggregates))

end Aggregate

end RecordQuery
