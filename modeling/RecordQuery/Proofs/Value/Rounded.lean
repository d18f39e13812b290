import RecordQuery.Proofs.Aggregate.RunningSum
import RecordQuery.Proofs.Filter.Integers
import RecordQuery.Proofs.Number.DecimalDouble

/-!
# Decimals as integers

A decimal is fitted to an integer kind by way of the number of 64 bits for it. The integer nearest
that number is fitted then, or refused.

* `Decimal.exists_nearestInt64?`: the integer, and how near the decimal it is;
* `coerce_decimal_of_isInteger`: what a decimal is fitted to. It is the nearest integer for decimals
  of few digits;
* `coerce_decimal_beyond_doubles`: an integer of 54 bits is not kept.
-/

namespace RecordQuery

open Binary

variable {kind : FieldKind} {d : Decimal} {n : ℤ}

/-! ## The nearest integer -/

namespace Decimal

/-- An integer that stands for a decimal: the nearest one if the decimal is short, and one that is
off by hardly more than a half and the last digits otherwise. -/
structure IsRounded (d : Decimal) (n : ℤ) : Prop where
  nearest : d.IsShort → IsNearest d.toRat n
  near : |d.toRat - n| ≤ 1 / 2 + |d.toRat| / 2 ^ 48

theorem abs_toRat (d : Decimal) : |d.toRat| = d.size := by
  rw [toRat_eq]
  split
  · rw [abs_neg, abs_of_nonneg d.size_nonneg]
  · exact abs_of_nonneg d.size_nonneg

/-- A short decimal is far below `2 ^ 63`. -/
theorem IsShort.size_le (h : d.IsShort) : d.size ≤ 2 ^ 53 := by
  rcases h with few | ⟨integral, small⟩
  · have less : (d.mantissa : ℚ) ≤ 2 ^ 50 := by exact_mod_cast few.le
    have one : (1 : ℚ) ≤ (10 ^ d.scale : ℕ) := by exact_mod_cast d.pow_scale_pos
    exact (div_le_self (Nat.cast_nonneg _) one).trans (less.trans (by norm_num))
  · rw [← d.parts_eq, integral, Nat.cast_zero, zero_div, add_zero]
    exact_mod_cast small

/-- The integer nearest the number of 64 bits, and the decimal. -/
theorem exists_nearestInt? (d : Decimal) :
    ∃ n, d.toDouble.nearestInt? = some n ∧ (d.IsShort → IsNearest d.toRat n) ∧
      |d.toRat - n| ≤ 1 / 2 + |d.toRat| * (19 * roundoff) := by
  obtain ⟨q, worth, near⟩ := d.exists_nearest
  obtain ⟨n, read, nearest⟩ := Binary.exists_nearestInt? (d.value?_toDouble worth)
  refine ⟨n, read, ?_⟩
  rw [abs_toRat, toRat_eq]
  cases sign : d.negative with
  | false =>
    rw [sign] at nearest
    exact near n nearest
  | true =>
    rw [sign] at nearest
    have turned := nearest.neg
    rw [if_pos rfl, neg_neg] at turned
    obtain ⟨exact, close⟩ := near (-n) turned
    have same : -d.size - n = -(d.size - ((-n : ℤ) : ℚ)) := by push_cast; ring
    rw [if_pos rfl, same, abs_neg]
    exact ⟨fun short => neg_neg n ▸ (exact short).neg, close⟩

/-- The integer that is fitted. It is the one nearest the number of 64 bits, but for `2 ^ 63`, which
counts as the integer below it: no short decimal comes so far, and for the others one more is within
the bound. -/
theorem exists_nearestInt64? (d : Decimal) :
    ∃ n, nearestInt64? d.toDouble = int64? n ∧ d.IsRounded n := by
  obtain ⟨n, read, nearest, near⟩ := d.exists_nearestInt?
  have some : 0 ≤ |d.toRat| := abs_nonneg _
  by_cases top : n = 0x8000000000000000
  · refine ⟨0x7fffffffffffffff, ?_, ?_⟩
    · rw [nearestInt64?, read, Option.bind_some, if_pos top]
      rfl
    rw [top] at near nearest
    push_cast at near
    obtain ⟨low, high⟩ := abs_le.1 near
    have part : |d.toRat| * (19 * roundoff) ≤ |d.toRat| * (1 / 2) :=
      mul_le_mul_of_nonneg_left (by norm_num [roundoff]) some
    have large : 2 ^ 62 ≤ |d.toRat| := by
      have own := le_abs_self d.toRat
      linarith
    constructor
    · intro short
      have less : |d.toRat| ≤ 2 ^ 53 := d.abs_toRat ▸ short.size_le
      linarith
    · have room : 1 ≤ |d.toRat| * (13 * roundoff) := by
        calc (1 : ℚ) ≤ 2 ^ 62 * (13 * roundoff) := by norm_num [roundoff]
          _ ≤ |d.toRat| * (13 * roundoff) :=
            mul_le_mul_of_nonneg_right large (by norm_num [roundoff])
      calc |d.toRat - (0x7fffffffffffffff : ℤ)|
          = |d.toRat - 0x8000000000000000 + 1| := by push_cast; ring_nf
        _ ≤ |d.toRat - 0x8000000000000000| + 1 := (abs_add_le _ _).trans_eq (by rw [abs_one])
        _ ≤ 1 / 2 + |d.toRat| * (19 * roundoff) + |d.toRat| * (13 * roundoff) :=
          add_le_add near room
        _ = 1 / 2 + |d.toRat| / 2 ^ 48 := by rw [roundoff]; ring
  · refine ⟨n, ?_, nearest, near.trans ?_⟩
    · rw [nearestInt64?, read, Option.bind_some, if_neg top]
    · have share : 19 * roundoff ≤ 1 / 2 ^ 48 := by norm_num [roundoff]
      rw [← mul_one_div (|d.toRat|)]
      exact add_le_add le_rfl (mul_le_mul_of_nonneg_left share some)

end Decimal

/-! ## What is fitted -/

theorem coerce_decimal_eq (d : Decimal) (integer : kind.isInteger = true) :
    coerce (.decimal d) (.of kind) =
      match (nearestInt64? d.toDouble).bind fun i => integerTo? i kind with
      | some v => .ok v
      | none => .error (.numeric d.display kind.name) := by
  cases kind <;> first | rfl | cases integer

/-- **A decimal is fitted to an integer kind** as an integer that stands for it, and refused if the
kind does not hold that integer. For decimals of few digits it is the nearest integer. -/
theorem coerce_decimal_of_isInteger (d : Decimal) (integer : kind.isInteger = true) :
    ∃ n, d.IsRounded n ∧
      (FitsInt64 n ∧ kind.HoldsInteger n → ∃ v i, coerce (.decimal d) (.of kind) = .ok v ∧
        v.kind? = some kind ∧ v.toInt? = some i ∧ i.toInt = n) ∧
      (¬ (FitsInt64 n ∧ kind.HoldsInteger n) →
        coerce (.decimal d) (.of kind) = .error (.numeric d.display kind.name)) := by
  obtain ⟨n, fitted, rounded⟩ := d.exists_nearestInt64?
  refine ⟨n, rounded, ?_⟩
  rw [coerce_decimal_eq d integer, fitted]
  by_cases fits : FitsInt64 n
  · obtain ⟨i, rfl⟩ := exists_int64_iff.2 fits
    rw [int64?_toInt, Option.bind_some]
    by_cases holds : kind.HoldsInteger i.toInt
    · obtain ⟨v, taken, value⟩ := integerTo?_of_holds integer holds
      rw [taken]
      exact ⟨fun _ => ⟨v, i, rfl, kind?_of_integerTo? taken, value, rfl⟩,
        fun out => absurd ⟨fits, holds⟩ out⟩
    · rw [integerTo?_of_not_holds integer holds]
      exact ⟨fun h => absurd h.2 holds, fun _ => rfl⟩
  · have out : int64? n = none := Option.eq_none_iff_forall_ne_some.2 fun i same =>
      fits (exists_int64_iff.1 ⟨i, int64?_eq_some.1 same⟩)
    rw [out]
    exact ⟨fun h => absurd h.1 fits, fun _ => rfl⟩

/-- A half goes to the even neighbour. -/
theorem coerce_decimal_of_half :
    ∃ v i, coerce (.decimal ⟨false, 25, 1, by decide, by decide⟩) (.of .int16) = .ok v ∧
      v.kind? = some .int16 ∧ v.toInt? = some i ∧ i.toInt = 2 := by
  obtain ⟨n, rounded, fits, -⟩ := coerce_decimal_of_isInteger
    ⟨false, 25, 1, by decide, by decide⟩ (show FieldKind.int16.isInteger = true from rfl)
  have nearest := rounded.nearest (.inl (by decide))
  have half : n = 2 := by
    have value : (⟨false, 25, 1, by decide, by decide⟩ : Decimal).toRat = 5 / 2 := by
      norm_num [Decimal.toRat, Binary.signed]
    rw [value] at nearest
    obtain ⟨low, high⟩ := abs_le.1 nearest.near
    have least : 2 ≤ n := by exact_mod_cast (show (2 : ℚ) ≤ n by linarith)
    have most : n ≤ 3 := by exact_mod_cast (show (n : ℚ) ≤ 3 by linarith)
    rcases least.eq_or_lt with same | more
    · exact same.symm
    · obtain rfl : n = 3 := by omega
      exact absurd (nearest.even (by norm_num)) (by decide)
  subst half
  exact fits ⟨by decide, by decide, by decide⟩

/-- `2 ^ 53 + 1` is an integer, and becomes the one below it. `2 ^ 63` is no integer of 64 bits, and
becomes the greatest of them. -/
theorem coerce_decimal_beyond_doubles :
    IsNearest (Decimal.toRat ⟨false, 9007199254740993, 0, by decide, by decide⟩) 9007199254740993 ∧
      coerce (.decimal ⟨false, 9007199254740993, 0, by decide, by decide⟩) (.of .int64) =
        .ok (.int64 9007199254740992) ∧
      ¬ FitsInt64 9223372036854775808 ∧
      coerce (.decimal ⟨false, 9223372036854775808, 0, by decide, by decide⟩) (.of .int64) =
        .ok (.int64 9223372036854775807) := by
  have below : nearestInt64? (Decimal.toDouble ⟨false, 9007199254740993, 0, by decide, by decide⟩) =
      some 9007199254740992 := by decide +kernel
  have top :
      nearestInt64? (Decimal.toDouble ⟨false, 9223372036854775808, 0, by decide, by decide⟩) =
        some 9223372036854775807 := by decide +kernel
  refine ⟨?_, ?_, by decide, ?_⟩
  · have value : Decimal.toRat ⟨false, 9007199254740993, 0, by decide, by decide⟩ =
        ((9007199254740993 : ℤ) : ℚ) := by norm_num [Decimal.toRat, Binary.signed]
    rw [value]
    exact ⟨by norm_num, by norm_num⟩
  · rw [coerce_decimal_eq _ rfl, below]
    rfl
  · rw [coerce_decimal_eq _ rfl, top]
    rfl

end RecordQuery
