import Mathlib.Algebra.Order.Field.Rat
import Mathlib.Data.Rat.Cast.Order
import RecordQuery.Proofs.Calendar.Clocks
import RecordQuery.Proofs.Value.NumberFamily

/-!
# What values stand for

Integers, decimals and numbers of enumerations stand for rational numbers, dates for points in
universal time. In a column whose values are all of one of six families, the sort order is the order
of what the values stand for, with null before everything.

* `Decimal.toRat`: the rational number of a decimal, whatever its scale;
* `LocalDateTime.chronological`: the order of time, by year, month, day, second and nanosecond;
* `Value.meaning?`: what a value stands for, and `Meaning.compare`, the order of it;
* `ColumnFamily.sortCompare_eq`: the sort order of a column.
-/

namespace RecordQuery

/-! ## Decimals -/

/-- The value of a decimal. -/
def Decimal.toRat (d : Decimal) : ℚ := Binary.signed d.negative d.mantissa / 10 ^ d.scale

/-- Decimals are counted in units of `10 ^ -28`. -/
theorem Decimal.position_eq_toRat (d : Decimal) :
    (d.position : ℚ) = d.toRat * (10 ^ maxScale : Nat) := by
  have place : d.position =
      Binary.signed d.negative d.mantissa * (10 ^ (maxScale - d.scale) : Nat) :=
    Binary.signed_mul d.negative d.mantissa (10 ^ (maxScale - d.scale))
  have split : 10 ^ maxScale = 10 ^ d.scale * 10 ^ (maxScale - d.scale) := by
    rw [← Nat.pow_add, Nat.add_sub_cancel' d.scale_le]
  have power : (10 ^ d.scale : ℚ) ≠ 0 := pow_ne_zero _ (by norm_num)
  rw [place, split, Decimal.toRat]
  push_cast
  rw [← mul_assoc, div_mul_cancel₀ _ power]

/-- Whole numbers of equal parts compare as the rational numbers that they count. -/
theorem compare_of_units {m n : Int} {p q k : ℚ} (pos : 0 < k) (hm : (m : ℚ) = p * k)
    (hn : (n : ℚ) = q * k) : compare m n = compare p q := by
  rcases lt_trichotomy p q with lt | rfl | gt
  · have less : (m : ℚ) < n := by
      rw [hm, hn]
      exact mul_lt_mul_of_pos_right lt pos
    rw [compare_lt_iff_lt.2 lt, compare_lt_iff_lt.2 (Int.cast_lt.1 less)]
  · have same : (m : ℚ) = n := hm.trans hn.symm
    rw [compare_eq_iff_eq.2 rfl, compare_eq_iff_eq.2 (Int.cast_inj.1 same)]
  · have more : (n : ℚ) < m := by
      rw [hm, hn]
      exact mul_lt_mul_of_pos_right gt pos
    rw [compare_gt_iff_gt.2 gt, compare_gt_iff_gt.2 (Int.cast_lt.1 more)]

/-! ## Time -/

/-- The order of time: by the year, then by the month, the day, the second and the nanosecond. -/
def LocalDateTime.chronological : LocalDateTime → LocalDateTime → Ordering :=
  compareLex (compareOn (·.date.year)) <| compareLex (compareOn (·.date.month)) <|
    compareLex (compareOn (·.date.day)) <| compareLex (compareOn (·.second)) (compareOn (·.nano))

/-- Numbers of two digits compare by the first digit, and then by the last. -/
theorem compare_digits {k : Nat} {a b : Int} {x y : Nat} (hx : x < k) (hy : y < k) :
    compare (a * k + x) (b * k + y) = (compare a b).then (compare x y) := by
  have apart {a b : Int} {x y : Nat} (hx : x < k) (lt : a < b) : a * k + x < b * k + y :=
    calc a * k + x < (a + 1) * k := by rw [Int.add_mul, Int.one_mul]; omega
      _ ≤ b * k := Int.mul_le_mul_of_nonneg_right lt (Int.natCast_nonneg k)
      _ ≤ b * k + y := by omega
  rcases lt_trichotomy a b with lt | rfl | gt
  · rw [compare_lt_iff_lt.2 lt, compare_lt_iff_lt.2 (apart hx lt)]
    rfl
  · rw [Std.compare_self, Ordering.eq_then, ← compare_natCast, Int.compare_eq_ite_lt,
      Int.compare_eq_ite_lt]
    simp only [Int.add_lt_add_iff_left]
  · rw [compare_gt_iff_gt.2 gt, compare_gt_iff_gt.2 (apart hy gt)]
    rfl

/-- **Times are compared as the clock and the calendar show them.** -/
theorem LocalDateTime.compare_eq_chronological (s t : LocalDateTime) :
    s.compare t = s.chronological t := by
  have month (d : Date) : d.month < 13 := Nat.lt_succ_of_le d.valid.month_le
  have day (d : Date) : d.day < 32 := Nat.lt_succ_of_le d.day_le
  have dates : Ord.compare s.date.position t.date.position =
      ((Ord.compare s.date.year t.date.year).then (Ord.compare s.date.month t.date.month)).then
        (Ord.compare s.date.day t.date.day) := by
    rw [← compare_digits (month s.date) (month t.date), ← compare_digits (day s.date) (day t.date)]
    rfl
  calc s.compare t
      = ((Ord.compare s.date.position t.date.position).then (Ord.compare s.second t.second)).then
          (Ord.compare s.nano t.nano) := by
        rw [← compare_digits s.second_lt t.second_lt, ← compare_digits s.nano_lt t.nano_lt]
        rfl
    _ = s.chronological t := by
        rw [dates, Ordering.then_assoc, Ordering.then_assoc, Ordering.then_assoc]
        rfl

/-! ## Meanings -/

/-- What a value stands for. -/
inductive Meaning
  | truth (b : Bool)
  | number (q : ℚ)
  | text (s : String)
  /-- A number of 128 bits. -/
  | code (n : Nat)
  /-- A point in universal time. -/
  | time (t : LocalDateTime)

namespace Meaning

/-- The order of what values stand for. Only things of one sort have an order. -/
def compare : Meaning → Meaning → Ordering
  | truth a, truth b => Ord.compare a b
  | number p, number q => Ord.compare p q
  | text s, text t => Ord.compare s t
  | code m, code n => Ord.compare m n
  | time s, time t => s.chronological t
  | _, _ => .eq

/-- The order of a column, where nothing comes before everything. -/
def compareOption : Option Meaning → Option Meaning → Ordering
  | none, none => .eq
  | none, some _ => .lt
  | some _, none => .gt
  | some x, some y => x.compare y

end Meaning

/-- What a value stands for. Null stands for nothing; binary numbers and values with children are
left out, as no column of them is exact. -/
def Value.meaning? : Value → Option Meaning
  | .bool b => some (.truth b)
  | .int16 n => some (.number n.toInt)
  | .int32 n => some (.number n.toInt)
  | .int64 n => some (.number n.toInt)
  | .enum _ n => some (.number n.toInt)
  | .decimal d => some (.number d.toRat)
  | .string s => some (.text s)
  | .guid g => some (.code g.bits.toNat)
  | .dateTime t => some (.time t)
  | .dateTimeOffset t => some (.time t.instant)
  | _ => none

/-- Values that may stand together in one exact column. -/
inductive ColumnFamily
  | truths
  /-- Integers of all widths and decimals of all scales. -/
  | decimals
  /-- Integers of all widths and numbers of enumerations. -/
  | enumerations
  | texts
  | guids
  /-- Dates with an offset and without. -/
  | dates
  deriving DecidableEq

/-- Whether a value is of a family. -/
def ColumnFamily.holds : ColumnFamily → Value → Bool
  | .truths, .bool _ => true
  | .decimals, .int16 _ | .decimals, .int32 _ | .decimals, .int64 _ | .decimals, .decimal _ => true
  | .enumerations, .int16 _ | .enumerations, .int32 _ | .enumerations, .int64 _
  | .enumerations, .enum _ _ => true
  | .texts, .string _ => true
  | .guids, .guid _ => true
  | .dates, .dateTime _ | .dates, .dateTimeOffset _ => true
  | _, _ => false

/-! ## The sort order of a column -/

namespace Value

variable {a b : Value} {p q : ℚ}

theorem isNull_iff {v : Value} : v.isNull = true ↔ v = .null := by
  cases v <;> simp [isNull]

/-- The places of numbers count parts of one size. -/
theorem sortNumber_of_number (h : a.meaning? = some (.number q)) :
    a.rank = 2 ∧ a.toString? = none ∧ (a.sortNumber : ℚ) = q * unitsPerOne := by
  have integer (n : Int) : ((n * unitsPerOne : Int) : ℚ) = n * unitsPerOne := by push_cast; rfl
  cases a with
  | int16 n => cases h; exact ⟨rfl, rfl, integer n.toInt⟩
  | int32 n => cases h; exact ⟨rfl, rfl, integer n.toInt⟩
  | int64 n => cases h; exact ⟨rfl, rfl, integer n.toInt⟩
  | enum d n => cases h; exact ⟨rfl, rfl, integer n.toInt⟩
  | decimal d =>
    cases h
    refine ⟨rfl, rfl, ?_⟩
    rw [sortNumber, unitsPerOne, Int.cast_mul, Decimal.position_eq_toRat]
    push_cast
    rw [mul_assoc]
  | _ => cases h

/-- **Numbers of one exact family** are sorted as the rational numbers that they stand for. -/
theorem sortCompare_of_numbers {family : NumberFamily} (ha : family.admits a = true)
    (hb : family.admits b = true) (hp : a.meaning? = some (.number p))
    (hq : b.meaning? = some (.number q)) : a.sortCompare b = compare p q := by
  obtain ⟨rankA, textA, unitsA⟩ := sortNumber_of_number hp
  obtain ⟨rankB, textB, unitsB⟩ := sortNumber_of_number hq
  have pos : (0 : ℚ) < unitsPerOne := by exact_mod_cast unitsPerOne_pos
  rw [sortCompare_eq_compare_place ha hb, compare_place (rankA.trans rankB.symm) textA textB,
    compare_of_units pos unitsA unitsB]

/-- **Dates** are sorted by the instants that they stand for. -/
theorem sortCompare_of_instants {s t : LocalDateTime} (ha : a.instant? = some s)
    (hb : b.instant? = some t) : a.sortCompare b = s.chronological t := by
  obtain ⟨rankA, -, -⟩ := rank_of_instant? ha
  obtain ⟨rankB, -, -⟩ := rank_of_instant? hb
  rw [sortCompare_of_rank_eq (rankA.trans rankB.symm), compare?_of_instants ha hb,
    Option.getD_some, LocalDateTime.compare_eq_chronological]

end Value

namespace ColumnFamily

variable {family : ColumnFamily} {a b v : Value}

/-- The family of numbers that can stand in a column; it admits all values that are no numbers. -/
def numbers : ColumnFamily → NumberFamily
  | decimals => .decimal
  | _ => .whole

theorem number_of_decimals (h : decimals.holds v = true) :
    ∃ q, v.meaning? = some (.number q) := by
  cases v <;> first | exact ⟨_, rfl⟩ | cases h

theorem number_of_enumerations (h : enumerations.holds v = true) :
    ∃ q, v.meaning? = some (.number q) := by
  cases v <;> first | exact ⟨_, rfl⟩ | cases h

theorem time_of_dates (h : dates.holds v = true) :
    ∃ t, v.instant? = some t ∧ v.meaning? = some (.time t) := by
  cases v <;> first | exact ⟨_, rfl, rfl⟩ | cases h

theorem admits_numbers (h : family.holds v = true) : family.numbers.admits v = true := by
  cases family <;> cases v <;> first | rfl | cases h

/-- **Values of one family** are sorted by what they stand for. -/
theorem sortCompare_of_holds (ha : family.holds a = true) (hb : family.holds b = true) :
    ∃ x y, a.meaning? = some x ∧ b.meaning? = some y ∧ a.sortCompare b = x.compare y := by
  have admitsA := admits_numbers ha
  have admitsB := admits_numbers hb
  cases family with
  | truths =>
    cases a <;> cases ha
    cases b <;> cases hb
    next x y => exact ⟨_, _, rfl, rfl, by cases x <;> cases y <;> rfl⟩
  | decimals =>
    obtain ⟨p, hp⟩ := number_of_decimals ha
    obtain ⟨q, hq⟩ := number_of_decimals hb
    exact ⟨_, _, hp, hq, Value.sortCompare_of_numbers admitsA admitsB hp hq⟩
  | enumerations =>
    obtain ⟨p, hp⟩ := number_of_enumerations ha
    obtain ⟨q, hq⟩ := number_of_enumerations hb
    exact ⟨_, _, hp, hq, Value.sortCompare_of_numbers admitsA admitsB hp hq⟩
  | texts =>
    cases a <;> cases ha
    cases b <;> cases hb
    exact ⟨_, _, rfl, rfl, rfl⟩
  | guids =>
    cases a <;> cases ha
    cases b <;> cases hb
    exact ⟨_, _, rfl, rfl, rfl⟩
  | dates =>
    obtain ⟨s, instantA, hs⟩ := time_of_dates ha
    obtain ⟨t, instantB, ht⟩ := time_of_dates hb
    exact ⟨_, _, hs, ht, Value.sortCompare_of_instants instantA instantB⟩

/-- Whether a value may stand in a column of the family: it is of the family, or null. -/
def admits (family : ColumnFamily) (v : Value) : Bool := v.isNull || family.holds v

theorem null_or_holds (h : family.admits v = true) : v = .null ∨ family.holds v = true := by
  rw [admits, Bool.or_eq_true, Value.isNull_iff] at h
  exact h

theorem sortCompare_null_of_holds (h : family.holds v = true) :
    ∃ x, v.meaning? = some x ∧ Value.sortCompare .null v = .lt ∧ v.sortCompare .null = .gt := by
  obtain ⟨x, -, found, -, -⟩ := sortCompare_of_holds h h
  refine ⟨x, found, ?_, ?_⟩
  all_goals cases v <;> first | rfl | cases found

/-- **The sort order of a column** is the order of what the values stand for, with null first. -/
theorem sortCompare_eq (ha : family.admits a = true) (hb : family.admits b = true) :
    a.sortCompare b = Meaning.compareOption a.meaning? b.meaning? := by
  rcases null_or_holds ha with rfl | ha
  · rcases null_or_holds hb with rfl | hb
    · rfl
    · obtain ⟨y, hy, order, -⟩ := sortCompare_null_of_holds hb
      rw [order, hy]
      rfl
  · rcases null_or_holds hb with rfl | hb
    · obtain ⟨x, hx, -, order⟩ := sortCompare_null_of_holds ha
      rw [order, hx]
      rfl
    · obtain ⟨x, y, hx, hy, order⟩ := sortCompare_of_holds ha hb
      rw [order, hx, hy]
      rfl

end ColumnFamily

end RecordQuery
