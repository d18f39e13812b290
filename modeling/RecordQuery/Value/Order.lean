import RecordQuery.Value

/-!
# Comparing values

* `Value.compare?` is the natural order. Numbers of all kinds compare with each other, dates by the
  instant, and an enum value with integers by its number. Other kinds do not compare;
* `Value.sortCompare` is defined for all pairs: null comes first, and values that do not compare
  are ordered by the rank of their kinds;
* `Value.looselyEqual` is equality under the natural order, `Value.same` equality kind by kind.
-/

namespace RecordQuery.Value

/-- Order of numbers: integers exactly; decimals exactly, with the other number converted, if that
is possible; all else as binary numbers. -/
def compareNumbers? (a b : Value) : Option Ordering :=
  match a.toInt?, b.toInt? with
  | some m, some n => some (compare m.toInt n.toInt)
  | _, _ =>
    let decimals :=
      match a, b with
      | .decimal _, _ | _, .decimal _ => a.toDecimal?.bind fun x => b.toDecimal?.map fun y => (x, y)
      | _, _ => none
    match decimals with
    | some (x, y) => some (x.compare y)
    | none => a.toDouble?.bind fun x => b.toDouble?.bind fun y => x.compare? y

/-- The natural order of two values, if their kinds compare. -/
def compare? : Value → Value → Option Ordering
  | .bool a, .bool b => some (compare a.toNat b.toNat)
  | .string a, .string b => some (compare a b)
  | .guid a, .guid b => some (compare a.bits.toNat b.bits.toNat)
  | .enum _ a, .enum _ b => some (compare a.toInt b.toInt)
  | .enum _ a, b => b.toInt?.map fun n => compare a.toInt n.toInt
  | a, .enum _ b => a.toInt?.map fun n => compare n.toInt b.toInt
  | a, b =>
    if a.isNumeric && b.isNumeric then compareNumbers? a b
    else match a.instant?, b.instant? with
      | some s, some t => some (s.compare t)
      | _, _ => none

/-- The rank of a kind among values that do not compare. -/
def rank : Value → Nat
  | .null => 0
  | .bool _ => 1
  | .int16 _ | .int32 _ | .int64 _ | .float32 _ | .float64 _ | .decimal _ | .enum _ _ => 2
  | .string _ => 3
  | .guid _ => 4
  | .dateTime _ | .dateTimeOffset _ => 5
  | .list _ => 6
  | .object _ => 7

/-- The order by which records are sorted. -/
def sortCompare (a b : Value) : Ordering :=
  match a.isNull, b.isNull with
  | true, true => .eq
  | true, false => .lt
  | false, true => .gt
  | false, false => (a.compare? b).getD (compare a.rank b.rank)

mutual

/-- Equality kind by kind. Decimals are equal whatever their scale, dates with an offset whatever
their clock; NaN equals nothing. -/
def same : Value → Value → Bool
  | .null, .null => true
  | .bool a, .bool b => a == b
  | .int16 a, .int16 b => a == b
  | .int32 a, .int32 b => a == b
  | .int64 a, .int64 b => a == b
  | .float32 a, .float32 b => a.sameValue b
  | .float64 a, .float64 b => a.sameValue b
  | .decimal a, .decimal b => a.position == b.position
  | .string a, .string b => a == b
  | .guid a, .guid b => a == b
  | .dateTime a, .dateTime b => a == b
  | .dateTimeOffset a, .dateTimeOffset b => a.instant == b.instant
  | .enum d a, .enum e b => d == e && a == b
  | .list a, .list b => sameItems a b
  | .object a, .object b => sameFields a b
  | _, _ => false

def sameItems : List Value → List Value → Bool
  | [], [] => true
  | a :: as, b :: bs => a.same b && sameItems as bs
  | _, _ => false

def sameFields : List (String × Value) → List (String × Value) → Bool
  | [], [] => true
  | (k, a) :: as, (l, b) :: bs => k == l && a.same b && sameFields as bs
  | _, _ => false

end

mutual

/-- Equality under the natural order. Null equals only null, lists are equal item by item, and
objects field by field and kind by kind. -/
def looselyEqual : Value → Value → Bool
  | .null, .null => true
  | .null, _ => false
  | _, .null => false
  | .list a, .list b => looselyEqualItems a b
  | .object a, .object b => sameFields a b
  | a, b => a.compare? b == some .eq

def looselyEqualItems : List Value → List Value → Bool
  | [], [] => true
  | a :: as, b :: bs => a.looselyEqual b && looselyEqualItems as bs
  | _, _ => false

end

end RecordQuery.Value
