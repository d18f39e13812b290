import RecordQuery.Aggregate
import RecordQuery.Proofs.Number.Exact
import RecordQuery.Proofs.Value.SortOrder

/-!
# Numbers that compare exactly

The sort order is not transitive among numbers of all kinds: an integer meets a binary number as the
nearest double, so two integers that differ can both be equal to one double; and NaN, or a number of
an enumeration beside one with a fraction, is equal to all numbers that it does not compare with.

* `NumberFamily` are the kinds of numbers that compare exactly with each other;
* `Value.place` gives the values of a family places in one order (`SortPlace.compare`), which is the
  sort order (`Value.sortCompare_eq_compare_place`);
* `Value.sortCompare_total_of_family`: among values whose numbers are of one family the order is
  total; `Value.sortCompare_beyond_doubles`: past the integers that doubles hold it is not.
-/

namespace RecordQuery

/-- Multiples compare as the numbers do. -/
theorem compare_mul_of_pos {k : Int} (pos : 0 < k) (m n : Int) :
    compare (m * k) (n * k) = compare m n := by
  rcases Int.lt_trichotomy m n with lt | rfl | gt
  · rw [Int.compare_eq_lt.2 lt, Int.compare_eq_lt.2 (Int.mul_lt_mul_of_pos_right lt pos)]
  · rw [Std.compare_self, Std.compare_self]
  · rw [Int.compare_eq_gt.2 gt, Int.compare_eq_gt.2 (Int.mul_lt_mul_of_pos_right gt pos)]

theorem compare_natCast (m n : Nat) : compare (m : Int) (n : Int) = compare m n := by
  rw [Int.compare_eq_ite_lt, Nat.compare_eq_ite_lt]
  simp only [Int.ofNat_lt]

/-! ## Families -/

/-- Kinds of numbers that compare exactly with each other. -/
inductive NumberFamily
  /-- Integers and numbers of enumerations. -/
  | whole
  /-- Integers and decimals. -/
  | decimal
  /-- Binary numbers and the integers that doubles hold, without NaN. -/
  | binary
  deriving DecidableEq

/-- Whether a value may stand among the numbers of a family. One that is no number may always. -/
def NumberFamily.admits (family : NumberFamily) : Value → Bool
  | .int64 n => family ≠ .binary || n.toInt.natAbs ≤ 2 ^ (53 : Nat)
  | .enum _ _ => family = .whole
  | .decimal _ => family = .decimal
  | .float32 x => family = .binary && x ≠ .nan
  | .float64 x => family = .binary && x ≠ .nan
  | _ => true

/-- The place of a value in the order of one family. -/
structure SortPlace where
  rank : Nat
  number : Int
  text : String

/-- Places are ordered by the rank, and within it by the number or the text. -/
def SortPlace.compare : SortPlace → SortPlace → Ordering :=
  compareLex (compareOn rank) (compareLex (compareOn number) (compareOn text))

instance : Std.TransCmp SortPlace.compare :=
  inferInstanceAs
    (Std.TransCmp (compareLex (compareOn SortPlace.rank)
      (compareLex (compareOn SortPlace.number) (compareOn SortPlace.text))))

namespace Value

/-- The unit of the places of numbers divides those of doubles and of decimals. So many make one. -/
def unitsPerOne : Nat := 10 ^ maxScale * 2 ^ Format.double.unit

/-- The place of a value among the values of its rank, if it has no text. -/
def sortNumber : Value → Int
  | .bool b => b.toNat
  | .int16 n => n.toInt * unitsPerOne
  | .int32 n => n.toInt * unitsPerOne
  | .int64 n => n.toInt * unitsPerOne
  | .enum _ n => n.toInt * unitsPerOne
  | .decimal d => d.position * (2 ^ Format.double.unit : Nat)
  | .float32 x => (x.convert .double).position?.getD 0 * (10 ^ maxScale : Nat)
  | .float64 x => x.position?.getD 0 * (10 ^ maxScale : Nat)
  | .guid g => g.bits.toNat
  | .dateTime t => t.position
  | .dateTimeOffset t => t.instant.position
  | _ => 0

/-- The place of a value in the order of a family that admits it. -/
def place (v : Value) : SortPlace := ⟨v.rank, v.sortNumber, (v.toString?).getD ""⟩

variable {a b : Value} {family : NumberFamily}

theorem unitsPerOne_pos : (0 : Int) < unitsPerOne :=
  Int.natCast_pos.2 (Nat.mul_pos (Nat.pow_pos (by decide)) (Nat.two_pow_pos _))

theorem sortNumber_of_toInt? {n : Int64} (h : a.toInt? = some n) :
    a.sortNumber = n.toInt * unitsPerOne := by
  cases a with
  | int16 m => obtain rfl := Option.some.inj h; rw [Int16.toInt_toInt64, sortNumber]
  | int32 m => obtain rfl := Option.some.inj h; rw [Int32.toInt_toInt64, sortNumber]
  | int64 m => obtain rfl := Option.some.inj h; rfl
  | _ => cases h

theorem exists_toInt?_of_whole (ha : NumberFamily.whole.admits a = true)
    (number : a.isNumeric = true) : ∃ n, a.toInt? = some n := by
  cases a with
  | int16 n => exact ⟨_, rfl⟩
  | int32 n => exact ⟨_, rfl⟩
  | int64 n => exact ⟨_, rfl⟩
  | decimal d => cases ha
  | float32 x => cases ha
  | float64 x => cases ha
  | _ => cases number

theorem exists_toInt?_of_decimal (ha : NumberFamily.decimal.admits a = true)
    (number : a.isNumeric = true) (other : a.isDecimal = false) : ∃ n, a.toInt? = some n := by
  cases a with
  | int16 n => exact ⟨_, rfl⟩
  | int32 n => exact ⟨_, rfl⟩
  | int64 n => exact ⟨_, rfl⟩
  | decimal d => cases other
  | float32 x => cases ha
  | float64 x => cases ha
  | _ => cases number

theorem isDecimal_of_binary (ha : NumberFamily.binary.admits a = true) : a.isDecimal = false := by
  cases a with
  | decimal d => cases ha
  | _ => rfl

/-- In the family of decimals every number is a decimal with its own place. -/
theorem exists_decimal (ha : NumberFamily.decimal.admits a = true) (number : a.isNumeric = true) :
    ∃ d, a.toDecimal? = some d ∧ a.sortNumber = d.position * (2 ^ Format.double.unit : Nat) := by
  have integer (n : Int64) : n.toInt * (unitsPerOne : Int) =
      (Decimal.ofInt64 n).position * (2 ^ Format.double.unit : Nat) := by
    rw [Decimal.position_ofInt64, unitsPerOne, Int.natCast_mul, Int.mul_assoc]
  cases a with
  | int16 n => exact ⟨_, rfl, by rw [← integer, Int16.toInt_toInt64, sortNumber]⟩
  | int32 n => exact ⟨_, rfl, by rw [← integer, Int32.toInt_toInt64, sortNumber]⟩
  | int64 n => exact ⟨_, rfl, integer n⟩
  | decimal d => exact ⟨d, rfl, rfl⟩
  | float32 x => cases ha
  | float64 x => cases ha
  | _ => cases number

/-- In the family of binary numbers every number is a double with its own place. -/
theorem exists_double (ha : NumberFamily.binary.admits a = true) (number : a.isNumeric = true) :
    ∃ x m, a.toDouble? = some x ∧ x.position? = some m ∧
      a.sortNumber = m * (10 ^ maxScale : Nat) := by
  have integer (n : Int) : n * (unitsPerOne : Int) =
      n * (2 ^ Format.double.unit : Nat) * (10 ^ maxScale : Nat) := by
    rw [unitsPerOne, Nat.mul_comm, Int.natCast_mul, Int.mul_assoc]
  cases a with
  | int16 n =>
    have small : n.toInt.natAbs ≤ 2 ^ (53 : Nat) := by
      have lower := n.le_toInt
      have upper := n.toInt_lt
      omega
    exact ⟨_, _, rfl, Binary.position?_ofInt_double small, integer _⟩
  | int32 n =>
    have small : n.toInt.natAbs ≤ 2 ^ (53 : Nat) := by
      have lower := n.le_toInt
      have upper := n.toInt_lt
      omega
    exact ⟨_, _, rfl, Binary.position?_ofInt_double small, integer _⟩
  | int64 n =>
    have small : n.toInt.natAbs ≤ 2 ^ (53 : Nat) := by simpa [NumberFamily.admits] using ha
    exact ⟨_, _, rfl, Binary.position?_ofInt_double small, integer _⟩
  | float32 x =>
    have number : x ≠ .nan := by simpa [NumberFamily.admits] using ha
    obtain ⟨m, found⟩ := Binary.exists_position? (Binary.convert_ne_nan .double number)
    exact ⟨_, m, rfl, found, by rw [sortNumber, found, Option.getD_some]⟩
  | float64 x =>
    have number : x ≠ .nan := by simpa [NumberFamily.admits] using ha
    obtain ⟨m, found⟩ := Binary.exists_position? number
    exact ⟨_, m, rfl, found, by rw [sortNumber, found, Option.getD_some]⟩
  | decimal d => cases ha
  | _ => cases number

/-- Numbers of one family compare by their places. -/
theorem compareNumbers?_of_family (ha : family.admits a = true) (hb : family.admits b = true)
    (numberA : a.isNumeric = true) (numberB : b.isNumeric = true) :
    compareNumbers? a b = some (compare a.sortNumber b.sortNumber) := by
  rw [compareNumbers?_eq]
  split
  · next m n hm hn =>
    rw [sortNumber_of_toInt? hm, sortNumber_of_toInt? hn, compare_mul_of_pos unitsPerOne_pos]
  · next inexact =>
    cases family with
    | whole =>
      obtain ⟨m, hm⟩ := exists_toInt?_of_whole ha numberA
      obtain ⟨n, hn⟩ := exists_toInt?_of_whole hb numberB
      exact absurd hn (inexact m n hm)
    | decimal =>
      obtain ⟨x, hx, placeA⟩ := exists_decimal ha numberA
      obtain ⟨y, hy, placeB⟩ := exists_decimal hb numberB
      have either : (a.isDecimal || b.isDecimal) = true := by
        rw [← Bool.not_eq_false, Bool.or_eq_false_iff]
        rintro ⟨otherA, otherB⟩
        obtain ⟨m, hm⟩ := exists_toInt?_of_decimal ha numberA otherA
        obtain ⟨n, hn⟩ := exists_toInt?_of_decimal hb numberB otherB
        exact inexact m n hm hn
      rw [decimals?_eq, if_pos either, hx, hy, placeA, placeB,
        compare_mul_of_pos (Int.natCast_pos.2 (Nat.two_pow_pos _))]
      rfl
    | binary =>
      obtain ⟨x, m, hx, hm, placeA⟩ := exists_double ha numberA
      obtain ⟨y, n, hy, hn, placeB⟩ := exists_double hb numberB
      have neither : (a.isDecimal || b.isDecimal) = false := by
        rw [isDecimal_of_binary ha, isDecimal_of_binary hb, Bool.or_false]
      rw [decimals?_eq, neither, placeA, placeB,
        compare_mul_of_pos (Int.natCast_pos.2 (Nat.pow_pos (by decide)))]
      simp only [compareDoubles?, hx, hy, Option.bind_some, Binary.compare?, hm, hn]
      rfl

/-- Among values of one rank without texts the places are those of the numbers. -/
theorem compare_place (rank : a.rank = b.rank) (ha : a.toString? = none) (hb : b.toString? = none) :
    a.place.compare b.place = compare a.sortNumber b.sortNumber := by
  have ranks : compare a.place.rank b.place.rank = .eq := by
    rw [place, place, rank, Std.compare_self]
  rw [SortPlace.compare, compareLex, compareOn, ranks, compareLex, compareOn, compareOn, place,
    place, ha, hb]
  exact Ordering.then_eq

theorem rank_of_numeric (h : a.isNumeric = true) : a.rank = 2 ∧ a.toString? = none := by
  cases a <;> first | exact ⟨rfl, rfl⟩ | cases h

theorem rank_of_instant? {t : LocalDateTime} (h : a.instant? = some t) :
    a.rank = 5 ∧ a.toString? = none ∧ a.sortNumber = t.position := by
  cases a <;> cases h <;> exact ⟨rfl, rfl, rfl⟩

/-- A family that admits a number of an enumeration is that of integers. -/
theorem whole_of_admits_enum {d : EnumDescriptor} {n : Int64}
    (h : family.admits (.enum d n) = true) : family = .whole := by
  simpa [NumberFamily.admits] using h

theorem compare_place_of_sameRank (h : SameRank a b) (ha : family.admits a = true)
    (hb : family.admits b = true) :
    (a.compare? b).getD .eq = a.place.compare b.place := by
  cases h with
  | nulls => rfl
  | bools x y => cases x <;> cases y <;> rfl
  | strings x y => rfl
  | guids x y =>
    rw [compare_place (a := .guid x) (b := .guid y) rfl rfl rfl]
    exact (compare_natCast x.bits.toNat y.bits.toNat).symm
  | lists x y => rfl
  | objects x y => rfl
  | dates hs ht =>
    obtain ⟨rankA, textA, placeA⟩ := rank_of_instant? hs
    obtain ⟨rankB, textB, placeB⟩ := rank_of_instant? ht
    rw [compare?_of_instants hs ht, compare_place (rankA.trans rankB.symm) textA textB, placeA,
      placeB]
    rfl
  | enums d e m n =>
    rw [compare_place (a := .enum d m) (b := .enum e n) rfl rfl rfl]
    exact (compare_mul_of_pos unitsPerOne_pos m.toInt n.toInt).symm
  | enumNumber d m number =>
    obtain rfl := whole_of_admits_enum ha
    obtain ⟨n, hn⟩ := exists_toInt?_of_whole hb number
    obtain ⟨rank, text⟩ := rank_of_numeric number
    rw [compare?_enum d m number, hn, compare_place (a := .enum d m) rank.symm rfl text,
      sortNumber_of_toInt? hn]
    exact (compare_mul_of_pos unitsPerOne_pos m.toInt n.toInt).symm
  | numberEnum d n number =>
    obtain rfl := whole_of_admits_enum hb
    obtain ⟨m, hm⟩ := exists_toInt?_of_whole ha number
    obtain ⟨rank, text⟩ := rank_of_numeric number
    rw [compare?_of_enum d n number, hm, compare_place (b := .enum d n) rank text rfl,
      sortNumber_of_toInt? hm]
    exact (compare_mul_of_pos unitsPerOne_pos m.toInt n.toInt).symm
  | numbers numberA numberB =>
    obtain ⟨rankA, textA⟩ := rank_of_numeric numberA
    obtain ⟨rankB, textB⟩ := rank_of_numeric numberB
    rw [compare?_of_numeric numberA numberB, compareNumbers?_of_family ha hb numberA numberB,
      compare_place (rankA.trans rankB.symm) textA textB, Option.getD_some]

/-- **In one family** values are sorted by their places. -/
theorem sortCompare_eq_compare_place (ha : family.admits a = true) (hb : family.admits b = true) :
    a.sortCompare b = a.place.compare b.place := by
  by_cases same : a.rank = b.rank
  · rw [sortCompare_of_rank_eq same, compare_place_of_sameRank (sameRank same) ha hb]
  · have apart : compare a.rank b.rank ≠ .eq := fun h => same (Std.LawfulEqOrd.eq_of_compare h)
    rw [sortCompare_of_rank_ne same, SortPlace.compare, compareLex, compareOn, place, place]
    cases order : compare a.rank b.rank with
    | eq => exact absurd order apart
    | lt => rfl
    | gt => rfl

/-! ## A total order -/

/-- **The sort order is total among values whose numbers are of one family.** Turned round it is the
order of the values turned round, whatever the values; and in a family it is transitive. -/
theorem sortCompare_total_of_family (a b c : Value) (family : NumberFamily) :
    b.sortCompare a = (a.sortCompare b).swap ∧
      (family.admits a = true → family.admits b = true → family.admits c = true →
        a.sortCompare b ≠ .gt → b.sortCompare c ≠ .gt → a.sortCompare c ≠ .gt) := by
  refine ⟨sortCompare_swap a b, fun ha hb hc first second => ?_⟩
  rw [sortCompare_eq_compare_place ha hb] at first
  rw [sortCompare_eq_compare_place hb hc] at second
  rw [sortCompare_eq_compare_place ha hc]
  exact Ordering.isLE_iff_ne_gt.1 (Std.TransCmp.isLE_trans (Ordering.isLE_iff_ne_gt.2 first)
    (Ordering.isLE_iff_ne_gt.2 second))

/-- Null, the double `2 ^ 53` and the integer `2 ^ 53` in the family of binary numbers. -/
theorem sortCompare_total_of_family_of_double :
    sortCompare .null (.float64 (.ofInt .double 9007199254740992)) ≠ .gt ∧
      sortCompare (.float64 (.ofInt .double 9007199254740992)) (.int64 9007199254740992) ≠ .gt ∧
      sortCompare .null (.int64 9007199254740992) ≠ .gt := by
  have first : sortCompare .null (.float64 (.ofInt .double 9007199254740992)) ≠ .gt := by
    decide +kernel
  have second : sortCompare (.float64 (.ofInt .double 9007199254740992))
      (.int64 9007199254740992) ≠ .gt := by decide +kernel
  exact ⟨first, second, (sortCompare_total_of_family _ _ _ .binary).2 rfl (by decide +kernel)
    (by decide +kernel) first second⟩

/-- **Past the integers that doubles hold the sort order is not transitive.** The double `2 ^ 53` is
equal to the integer and to the next one, which differ. So the last of three can count as the
greatest though the first is greater. -/
theorem sortCompare_beyond_doubles :
    sortCompare (.int64 9007199254740993) (.float64 (.ofInt .double 9007199254740992)) = .eq ∧
      sortCompare (.float64 (.ofInt .double 9007199254740992)) (.int64 9007199254740992) = .eq ∧
      sortCompare (.int64 9007199254740993) (.int64 9007199254740992) = .gt ∧
      Aggregate.greatest [.int64 9007199254740993, .float64 (.ofInt .double 9007199254740992),
        .int64 9007199254740992] = .int64 9007199254740992 := by
  have first : sortCompare (.int64 9007199254740993)
      (.float64 (.ofInt .double 9007199254740992)) = .eq := by decide +kernel
  have second : sortCompare (.float64 (.ofInt .double 9007199254740992))
      (.int64 9007199254740992) = .eq := by decide +kernel
  refine ⟨first, second, by decide +kernel, ?_⟩
  simp [Aggregate.greatest, first, second]

end Value

end RecordQuery
