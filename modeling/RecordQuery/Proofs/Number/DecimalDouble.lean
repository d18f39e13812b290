import Mathlib.Tactic.NormNum
import RecordQuery.Proofs.Number.Roundings
import RecordQuery.Proofs.Value.Meaning

/-!
# Decimals as numbers of 64 bits

The number of 64 bits for a decimal is computed from its integral part and its fraction and then set
back on the grid of its scale. For a decimal of few digits this restores the magnitude, so the
number is the nearest one. For other decimals at most eighteen roundings lead to the number.

* `Decimal.magnitude`: the computation without the sign, and `Decimal.value?_toDouble`;
* `Decimal.exists_worth_of_few`, `Decimal.exists_worth_of_integral` and `Decimal.reaches_magnitude`:
  what it leads to;
* `Decimal.IsShort`: decimals of few digits, and integers of 53 bits;
* `Decimal.exists_nearest`: the integer nearest the number, and the decimal.
-/

namespace RecordQuery

/-! ## What numbers are worth -/

namespace Binary

variable {x : Double} {q : ℚ}

/-- What a finite number is worth. -/
def value? : Double → Option ℚ
  | .finite negative units _ => some (signed negative units / unitsOfOne)
  | _ => none

theorem IsWorth.value?_eq (h : x.IsWorth q) : x.value? = some q := by
  obtain ⟨units, held, rfl, worth⟩ := h
  refine congrArg some ?_
  rw [div_eq_iff unitsOfOne_pos.ne', ← worth]
  rfl

theorem value?_neg (h : x.value? = some q) : x.neg.value? = some (-q) := by
  cases x with
  | nan => cases h
  | infinite negative => cases h
  | finite negative units held =>
    obtain rfl := Option.some.inj h
    refine congrArg some ?_
    cases negative
    · simp [signed, neg_div]
    · simp [signed, neg_div]

theorem neg_ofUnitRatio (f : Format) (num den : ℕ) :
    (ofUnitRatio f false num den).neg = ofUnitRatio f true num den := by
  unfold ofUnitRatio
  split <;> rfl

/-- A finite number has an integer nearest to it. -/
theorem exists_nearestInt? (h : x.value? = some q) :
    ∃ n, x.nearestInt? = some n ∧ IsNearest q n := by
  cases x with
  | nan => cases h
  | infinite negative => cases h
  | finite negative units held =>
    obtain rfl := Option.some.inj h
    have nearest : IsNearest (units / (2 ^ Format.double.unit : ℕ))
        (halfEven units (2 ^ Format.double.unit) : ℕ) :=
      isNearest_halfEven (Nat.two_pow_pos Format.double.unit)
    rw [← unitsOfOne_eq] at nearest
    cases negative with
    | false => exact ⟨_, rfl, nearest⟩
    | true =>
      refine ⟨_, rfl, ?_⟩
      have turned := nearest.neg
      rwa [← neg_div, ← Int.cast_natCast units, ← Int.cast_neg] at turned

theorem isZero_iff (h : x.IsWorth q) : x.isZero = true ↔ q = 0 := by
  obtain ⟨units, held, rfl, worth⟩ := h
  have zero : (units : ℚ) = 0 ↔ q = 0 := by
    rw [worth, mul_eq_zero, or_iff_left unitsOfOne_pos.ne']
  rw [← zero, Nat.cast_eq_zero]
  show ((some (signed false units) == some 0) = true) ↔ _
  rw [beq_iff_eq, Option.some_inj]
  exact Int.natCast_eq_zero

/-- Rounding to an integral number gives the number of an integer that is no farther than a half. -/
theorem IsWorth.exists_roundAway (h : x.IsWorth q) :
    ∃ n : ℕ, x.roundAway = ofInt .double n ∧ |(n : ℚ) - q| ≤ 1 / 2 := by
  obtain ⟨units, held, rfl, worth⟩ := h
  have width : 0 < 2 ^ Format.double.unit := Nat.two_pow_pos _
  refine ⟨halfUp units (2 ^ Format.double.unit), ?_, ?_⟩
  · have sign (n : ℕ) : decide ((n : ℤ) < 0) = false :=
      decide_eq_false (Int.not_lt.2 (Int.natCast_nonneg n))
    rw [ofInt, sign, Int.natAbs_natCast]
    rfl
  · have near : |(units / (2 ^ Format.double.unit : ℕ) : ℚ) -
        (halfUp units (2 ^ Format.double.unit) : ℕ)| ≤ 1 / 2 :=
      abs_halfUp_sub_le (Nat.two_pow_pos Format.double.unit)
    rwa [← unitsOfOne_eq, worth, mul_div_cancel_right₀ _ unitsOfOne_pos.ne', abs_sub_comm] at near

/-- A zero divided by an integer is a zero. -/
theorem isWorth_zero_div {y : Double} (hy : y.IsWorth q) (pos : 0 < q) :
    ((ofInt .double (0 : ℕ)).div y).IsWorth 0 := by
  obtain ⟨m, hm, same, zero⟩ := isWorth_ofNat (n := 0) (by decide)
  obtain ⟨n, hn, rfl, worth⟩ := hy
  have none : m = 0 := by
    rw [Nat.cast_zero, zero_mul] at zero
    exact_mod_cast zero
  have some : n ≠ 0 := by
    rintro rfl
    rw [Nat.cast_zero] at worth
    exact (mul_pos pos unitsOfOne_pos).ne worth
  subst none
  rw [same, Binary.div, if_neg some, ofRatio, Nat.zero_mul]
  exact isWorth_ofUnitRatio_of_representable (Nat.pos_of_ne_zero some) (Nat.zero_mul n).symm hm
    zero

end Binary

/-! ## The computation -/

namespace Decimal

variable {d : Decimal} {q : ℚ}

/-- A decimal without its sign. -/
def size (d : Decimal) : ℚ := d.mantissa / (10 ^ d.scale : ℕ)

theorem toRat_eq (d : Decimal) : d.toRat = if d.negative then -d.size else d.size := by
  rw [toRat, size, Nat.cast_pow, Nat.cast_ofNat]
  cases d.negative
  · exact congrArg (· / _) (Int.cast_natCast _)
  · rw [if_pos rfl, ← neg_div]
    exact congrArg (· / _) (by rw [Binary.signed, if_pos rfl, Int.cast_neg, Int.cast_natCast])

/-- The fraction as a number of 64 bits. -/
def fraction (d : Decimal) : Double :=
  (Binary.ofInt .double (d.mantissa % 10 ^ d.scale : ℕ)).div (.ofInt .double (10 ^ d.scale : ℕ))

/-- The number of 64 bits for a decimal, without its sign. -/
def magnitude (d : Decimal) : Double :=
  let power : ℕ := 10 ^ d.scale
  let whole : Double := .ofInt .double (d.mantissa / power : ℕ)
  if d.fraction.isZero then whole
  else (((whole.add d.fraction).mul (.ofInt .double power)).roundAway).div (.ofInt .double power)

theorem pow_scale_pos (d : Decimal) : 0 < 10 ^ d.scale := Nat.pow_pos (by decide)

theorem pow_scale_le (d : Decimal) : 10 ^ d.scale ≤ 2 ^ 100 :=
  (Nat.pow_le_pow_right (by decide) d.scale_le).trans (by decide : 10 ^ 28 ≤ 2 ^ 100)

theorem mantissa_le (d : Decimal) : d.mantissa ≤ 2 ^ 96 := d.mantissa_lt.le

theorem moderate_pow_scale (d : Decimal) : Moderate (10 ^ d.scale : ℕ) :=
  moderate_natCast d.pow_scale_pos d.pow_scale_le

/-- An integer over the scale of a decimal. -/
theorem moderate_div_pow_scale (d : Decimal) {n : ℕ} (some : 0 < n) (le : n ≤ 2 ^ 100) :
    Moderate (n / (10 ^ d.scale : ℕ)) := by
  have one : (1 : ℚ) ≤ (10 ^ d.scale : ℕ) := by exact_mod_cast d.pow_scale_pos
  have top : ((10 ^ d.scale : ℕ) : ℚ) ≤ 2 ^ 100 := d.moderate_pow_scale.high
  have size := moderate_natCast some le
  constructor
  · rw [le_div_iff₀ (by linarith)]
    calc 1 / 2 ^ 100 * ((10 ^ d.scale : ℕ) : ℚ) ≤ 1 / 2 ^ 100 * 2 ^ 100 :=
          mul_le_mul_of_nonneg_left top (by norm_num)
      _ = 1 := by norm_num
      _ ≤ n := by exact_mod_cast some
  · exact (div_le_self (Nat.cast_nonneg n) one).trans size.high

/-- Without a fraction only the integral part is converted. -/
theorem magnitude_of_integral (integral : d.mantissa % 10 ^ d.scale = 0) :
    d.magnitude = .ofInt .double (d.mantissa / 10 ^ d.scale : ℕ) := by
  obtain ⟨p, worth, near⟩ := Binary.reaches_ofNat d.moderate_pow_scale
  have zero := Binary.isWorth_zero_div worth (near.value_pos d.moderate_pow_scale.pos)
  have none : d.fraction.isZero = true := by
    rw [fraction, integral]
    exact (Binary.isZero_iff zero).2 rfl
  rw [magnitude, if_pos none]

/-- The sign is put to the magnitude. -/
theorem value?_toDouble (h : d.magnitude.IsWorth q) :
    d.toDouble.value? = some (if d.negative then -q else q) := by
  by_cases whole : d.scale = 0
  · have integral : d.magnitude = .ofInt .double (d.mantissa : ℤ) := by
      rw [magnitude_of_integral (by rw [whole, Nat.pow_zero, Nat.mod_one]), whole, Nat.pow_zero,
        Nat.div_one]
    rw [integral] at h
    rw [toDouble, if_pos whole]
    cases sign : d.negative with
    | false => exact h.value?_eq
    | true =>
      simp only [if_true]
      rcases Nat.eq_zero_or_pos d.mantissa with none | some
      · rw [none] at h ⊢
        have zero : q = 0 := by
          have same := h.value?_eq.symm.trans (Binary.isWorth_ofNat (n := 0) (by decide)).value?_eq
          exact (Option.some.inj same).trans Nat.cast_zero
        rw [zero] at h ⊢
        rw [neg_zero]
        exact h.value?_eq
      · have turned := Binary.value?_neg h.value?_eq
        rw [Binary.ofInt, Binary.ofRatio, decide_eq_false (by omega), Binary.neg_ofUnitRatio,
          Int.natAbs_natCast] at turned
        rw [Binary.ofInt, Binary.ofRatio, decide_eq_true (by omega), Int.natAbs_neg,
          Int.natAbs_natCast]
        exact turned
  · have same : d.toDouble = if d.negative then d.magnitude.neg else d.magnitude := by
      rw [toDouble, if_neg whole]
      rfl
    rw [same]
    split
    · exact Binary.value?_neg h.value?_eq
    · exact h.value?_eq

/-! ## What it leads to -/

theorem moderate_mantissa (some : 0 < d.mantissa) : Moderate d.mantissa :=
  moderate_natCast some (d.mantissa_le.trans (by decide))

theorem moderate_size (some : 0 < d.mantissa) : Moderate d.size :=
  d.moderate_div_pow_scale some (d.mantissa_le.trans (by decide))

theorem rest_le (d : Decimal) : d.mantissa % 10 ^ d.scale ≤ 2 ^ 100 :=
  (Nat.mod_le _ _).trans (d.mantissa_le.trans (by decide))

theorem moderate_rest (rest : d.mantissa % 10 ^ d.scale ≠ 0) :
    Moderate (d.mantissa % 10 ^ d.scale : ℕ) :=
  moderate_natCast (Nat.pos_of_ne_zero rest) d.rest_le

theorem moderate_fraction (rest : d.mantissa % 10 ^ d.scale ≠ 0) :
    Moderate ((d.mantissa % 10 ^ d.scale : ℕ) / (10 ^ d.scale : ℕ)) :=
  d.moderate_div_pow_scale (Nat.pos_of_ne_zero rest) d.rest_le

theorem whole_le (d : Decimal) : d.mantissa / 10 ^ d.scale ≤ 2 ^ 100 :=
  (Nat.div_le_self _ _).trans (d.mantissa_le.trans (by decide))

theorem parts_eq (d : Decimal) :
    ((d.mantissa / 10 ^ d.scale : ℕ) : ℚ) + (d.mantissa % 10 ^ d.scale : ℕ) / (10 ^ d.scale : ℕ) =
      d.size := by
  have power : ((10 ^ d.scale : ℕ) : ℚ) ≠ 0 := by exact_mod_cast d.pow_scale_pos.ne'
  rw [size, eq_div_iff power, add_mul, div_mul_cancel₀ _ power]
  exact_mod_cast Nat.div_add_mod' d.mantissa (10 ^ d.scale)

theorem size_mul (d : Decimal) : d.size * (10 ^ d.scale : ℕ) = d.mantissa := by
  have power : ((10 ^ d.scale : ℕ) : ℚ) ≠ 0 := by exact_mod_cast d.pow_scale_pos.ne'
  rw [size, div_mul_cancel₀ _ power]

section Steps

variable {j k : ℕ} (rest : d.mantissa % 10 ^ d.scale ≠ 0)
  (hrest : (Binary.ofInt .double (d.mantissa % 10 ^ d.scale : ℕ)).Reaches j
    (d.mantissa % 10 ^ d.scale : ℕ))
  (hpower : (Binary.ofInt .double (10 ^ d.scale : ℕ)).Reaches k (10 ^ d.scale : ℕ))
include rest hrest hpower

theorem reaches_fraction (few : j + k < 20) :
    d.fraction.Reaches (j + k + 1) ((d.mantissa % 10 ^ d.scale : ℕ) / (10 ^ d.scale : ℕ)) := by
  rw [fraction]
  exact hrest.div hpower d.moderate_pow_scale.pos few (moderate_fraction rest)

/-- The number with its point moved behind all decimals. -/
theorem exists_scaled (few : j + k + 2 + k < 20)
    (hwhole : (Binary.ofInt .double (d.mantissa / 10 ^ d.scale : ℕ)).Reaches (j + k + 1)
      (d.mantissa / 10 ^ d.scale : ℕ)) :
    ∃ p, Within (j + k + 2 + k + 1) p d.mantissa ∧ ∃ n : ℕ, |(n : ℚ) - p| ≤ 1 / 2 ∧
      d.magnitude = (Binary.ofInt .double n).div (.ofInt .double (10 ^ d.scale : ℕ)) := by
  have pos : 0 < d.mantissa := Nat.pos_of_ne_zero fun zero => rest (by rw [zero, Nat.zero_mod])
  have fraction := reaches_fraction rest hrest hpower (by omega)
  have sum := hwhole.add fraction (by omega) (d.parts_eq ▸ moderate_size pos)
  rw [d.parts_eq] at sum
  obtain ⟨p, worth, near⟩ := sum.mul hpower (by omega) (d.size_mul ▸ moderate_mantissa pos)
  rw [d.size_mul] at near
  obtain ⟨n, integral, close⟩ := worth.exists_roundAway
  refine ⟨p, near, n, close, ?_⟩
  obtain ⟨f, held, within⟩ := fraction
  have some : ¬ d.fraction.isZero = true := fun zero =>
    (within.value_pos (moderate_fraction rest).pos).ne' ((Binary.isZero_iff held).1 zero)
  rw [magnitude, if_neg some, integral]

end Steps

section Outcomes

variable (rest : d.mantissa % 10 ^ d.scale ≠ 0)
include rest

/-- With every conversion rounded. -/
theorem exists_scaled_of_roundings :
    ∃ p, Within 6 p d.mantissa ∧ ∃ n : ℕ, |(n : ℚ) - p| ≤ 1 / 2 ∧
      d.magnitude = (Binary.ofInt .double n).div (.ofInt .double (10 ^ d.scale : ℕ)) :=
  exists_scaled rest (Binary.reaches_ofNat (moderate_rest rest))
    (Binary.reaches_ofNat d.moderate_pow_scale) (by decide)
    ((Binary.reaches_ofNat_of_le d.whole_le).mono (by decide))

/-- A decimal of few digits comes back to its digits: they are divided by an exact power of ten. -/
theorem magnitude_of_few (few : d.mantissa < 2 ^ 50) (le : d.scale ≤ 22) :
    d.magnitude = (Binary.ofInt .double d.mantissa).div (.ofInt .double (10 ^ d.scale : ℕ)) := by
  have power := Binary.isWorth_pow_ten le
  have small : (d.mantissa : ℚ) < 2 ^ 50 := by exact_mod_cast few
  have exact {n : ℕ} (le : n ≤ d.mantissa) : (Binary.ofInt .double n).Reaches 0 n :=
    (Binary.isWorth_ofNat (le.trans (few.le.trans (by decide)))).reaches (Nat.cast_nonneg n)
  obtain ⟨p, near, n, close, same⟩ := exists_scaled rest (exact (Nat.mod_le _ _))
    (power.reaches (Nat.cast_nonneg _)) (by decide)
      ((exact (Nat.div_le_self _ _)).mono (Nat.zero_le _))
  -- three roundings of the digits stay below a half
  have less : d.mantissa * (((0 + 0 + 2 + 0 + 1 : ℕ) + 1) * roundoff) < 1 / 2 := by
    calc d.mantissa * (((0 + 0 + 2 + 0 + 1 : ℕ) + 1) * roundoff)
        < 2 ^ 50 * (((0 + 0 + 2 + 0 + 1 : ℕ) + 1) * roundoff) :=
          mul_lt_mul_of_pos_right small (by norm_num [roundoff])
      _ = 1 / 2 := by norm_num [roundoff]
  have apart : |(n : ℚ) - d.mantissa| < 1 :=
    calc |(n : ℚ) - d.mantissa| ≤ |(n : ℚ) - p| + |p - d.mantissa| := abs_sub_le _ _ _
      _ < 1 / 2 + 1 / 2 :=
        add_lt_add_of_le_of_lt close ((near.abs_sub_le (by decide)).trans_lt less)
      _ = 1 := add_halves 1
  have integers : |(n : ℤ) - d.mantissa| < 1 := by exact_mod_cast apart
  have back : (n : ℤ) = d.mantissa := by
    have zero := Int.abs_lt_one_iff.1 integers
    omega
  rw [same, back]

omit rest in
/-- A half of an integer is exact. -/
theorem isWorth_of_half (few : d.mantissa < 2 ^ 50) (le : d.scale ≤ 22)
    (half : 10 ^ d.scale ∣ 2 * d.mantissa) :
    ((Binary.ofInt .double d.mantissa).div (.ofInt .double (10 ^ d.scale : ℕ))).IsWorth d.size := by
  obtain ⟨k, double⟩ := half
  have less : k < 2 ^ Format.double.precision := by
    refine Nat.lt_of_le_of_lt (Nat.le_mul_of_pos_left k d.pow_scale_pos) ?_
    rw [← double]
    exact Nat.lt_of_lt_of_le (by omega : 2 * d.mantissa < 2 ^ 51) (by decide)
  have unit : unitsOfOne = 2 * (2 ^ (Format.double.unit - 1) : ℕ) := by
    rw [unitsOfOne, Nat.cast_pow, Nat.cast_ofNat]
    exact pow_succ' 2 (Format.double.unit - 1)
  have twice : d.size * 2 = k := by
    have power : ((10 ^ d.scale : ℕ) : ℚ) ≠ 0 := by exact_mod_cast d.pow_scale_pos.ne'
    rw [size, div_mul_eq_mul_div, div_eq_iff power, mul_comm, mul_comm (k : ℚ)]
    exact_mod_cast double
  have worth : ((k * 2 ^ (Format.double.unit - 1) : ℕ) : ℚ) = d.size * unitsOfOne := by
    rw [unit, ← mul_assoc, twice, Nat.cast_mul]
  exact (Binary.isWorth_ofNat (few.le.trans (by decide))).div (Binary.isWorth_pow_ten le)
    d.moderate_pow_scale.pos (Format.representable_mul_two_pow less (by decide)) worth

/-- The number for a decimal of few digits is rounded once, and a half of an integer is not. -/
theorem exists_worth_of_few (few : d.mantissa < 2 ^ 50) (le : d.scale ≤ 22) :
    ∃ q, d.magnitude.IsWorth q ∧ Within 1 q d.size ∧
      (((10 ^ d.scale : ℕ) : ℤ) ∣ 2 * d.mantissa → q = d.size) := by
  have pos : 0 < d.mantissa := Nat.pos_of_ne_zero fun zero => rest (by rw [zero, Nat.zero_mod])
  rw [magnitude_of_few rest few le]
  by_cases half : 10 ^ d.scale ∣ 2 * d.mantissa
  · exact ⟨d.size, isWorth_of_half few le half,
      (Within.refl (moderate_size pos).pos.le).mono (Nat.zero_le 1), fun _ => rfl⟩
  · have digits := (Binary.isWorth_ofNat (few.le.trans (by decide))).reaches
      (Nat.cast_nonneg d.mantissa)
    obtain ⟨q, held, once⟩ := digits.div ((Binary.isWorth_pow_ten le).reaches (Nat.cast_nonneg _))
      d.moderate_pow_scale.pos (by decide) (moderate_size pos)
    exact ⟨q, held, once, fun whole => absurd (by exact_mod_cast whole) half⟩

/-- With more than twenty-two decimals, a decimal of few digits and its number are next to nothing.
-/
theorem exists_worth_of_fine (few : d.mantissa < 2 ^ 50) (fine : 22 < d.scale) :
    d.size < 1 / 2 ∧ ∃ q, d.magnitude.IsWorth q ∧ q < 1 / 2 := by
  have pos : 0 < d.mantissa := Nat.pos_of_ne_zero fun zero => rest (by rw [zero, Nat.zero_mod])
  have one : (1 : ℚ) ≤ d.mantissa := by exact_mod_cast pos
  have small : (d.mantissa : ℚ) < 2 ^ 50 := by exact_mod_cast few
  have width := d.moderate_pow_scale.pos
  have wide : ((10 ^ 23 : ℕ) : ℚ) ≤ (10 ^ d.scale : ℕ) := by
    exact_mod_cast Nat.pow_le_pow_right (by decide) fine
  have less {n : ℚ} (le : n ≤ 3 * d.mantissa) : n / (10 ^ d.scale : ℕ) < 1 / 4 := by
    rw [div_lt_iff₀ width]
    calc n ≤ 3 * d.mantissa := le
      _ < 3 * 2 ^ 50 := mul_lt_mul_of_pos_left small (by norm_num)
      _ ≤ 1 / 4 * (10 ^ 23 : ℕ) := by norm_num
      _ ≤ 1 / 4 * (10 ^ d.scale : ℕ) := mul_le_mul_of_nonneg_left wide (by norm_num)
  refine ⟨lt_trans (less (by linarith)) (by norm_num), ?_⟩
  obtain ⟨p, near, n, close, same⟩ := exists_scaled_of_roundings rest
  obtain ⟨half, twice⟩ := near.half_le (by decide)
  obtain ⟨low, high⟩ := abs_le.1 close
  have most : (n : ℚ) ≤ 3 * d.mantissa := by linarith
  rw [same]
  rcases Nat.eq_zero_or_pos n with rfl | some
  · obtain ⟨y, worth, within⟩ := Binary.reaches_ofNat d.moderate_pow_scale
    exact ⟨0, Binary.isWorth_zero_div worth (within.value_pos width), by norm_num⟩
  · have bound : n ≤ 2 ^ 100 := by
      have natural : n ≤ 3 * d.mantissa := by exact_mod_cast most
      exact natural.trans (by omega)
    obtain ⟨q, held, within⟩ := (Binary.reaches_ofNat_of_le bound).div
      (Binary.reaches_ofNat d.moderate_pow_scale) width (by decide)
      (d.moderate_div_pow_scale some bound)
    refine ⟨q, held, ?_⟩
    calc q ≤ 2 * (n / (10 ^ d.scale : ℕ)) := (within.half_le (by decide)).2
      _ < 2 * (1 / 4) := mul_lt_mul_of_pos_left (less most) two_pos
      _ = 1 / 2 := by norm_num

/-- A decimal of many digits loses some of them: setting its number back on the grid of the scale is
then no more than nine further roundings. -/
theorem reaches_magnitude (many : 2 ^ 50 ≤ d.mantissa) : d.magnitude.Reaches 18 d.size := by
  have large : (2 : ℚ) ^ 50 ≤ d.mantissa := by exact_mod_cast many
  have pos : 0 < d.mantissa := lt_of_lt_of_le (by decide) many
  obtain ⟨p, near, n, close, same⟩ := exists_scaled_of_roundings rest
  obtain ⟨half, twice⟩ := near.half_le (by decide)
  obtain ⟨low, high⟩ := abs_le.1 close
  have gap : 1 / 2 ≤ p * (8 * roundoff) := by
    calc (1 : ℚ) / 2 = 2 ^ 50 / 2 * (8 * roundoff) := by norm_num [roundoff]
      _ ≤ p * (8 * roundoff) := mul_le_mul_of_nonneg_right (by linarith) (by norm_num [roundoff])
  have some : 0 ≤ p := near.value_nonneg
  have grid : Within 9 n p := by
    refine ⟨some, ?_, ?_⟩
    · calc p * (1 - roundoff) ^ 9 ≤ p * (1 - 8 * roundoff) :=
            mul_le_mul_of_nonneg_left (by norm_num [roundoff]) some
        _ = p - p * (8 * roundoff) := mul_one_sub _ _
        _ ≤ n := by linarith
    · calc n * (1 - roundoff) ^ 9 ≤ (p + p * (8 * roundoff)) * (1 - roundoff) ^ 9 :=
            mul_le_mul_of_nonneg_right (by linarith) (Within.shrink_pos 9).le
        _ = p * ((1 + 8 * roundoff) * (1 - roundoff) ^ 9) := by ring
        _ ≤ p * 1 := mul_le_mul_of_nonneg_left (by norm_num [roundoff]) some
        _ = p := mul_one p
  have bound : (d.mantissa : ℚ) ≤ (decimalBound : ℕ) := by exact_mod_cast d.mantissa_lt.le
  have size : Moderate n := by
    refine ⟨le_trans (by norm_num) (show (1 : ℚ) ≤ n by linarith), ?_⟩
    have top : ((decimalBound : ℕ) : ℚ) ≤ 2 ^ 97 := by norm_num [decimalBound]
    have room : (2 : ℚ) * 2 ^ 97 + 1 / 2 ≤ 2 ^ 100 := by norm_num
    linarith
  obtain ⟨x, worth, once⟩ := Binary.reaches_ofNat size
  have integer : (Binary.ofInt .double n).Reaches 16 d.mantissa :=
    ⟨x, worth, once.trans (grid.trans near)⟩
  rw [same]
  exact integer.div (Binary.reaches_ofNat d.moderate_pow_scale) d.moderate_pow_scale.pos (by decide)
    (moderate_size pos)

omit rest in
/-- An integral decimal is rounded once, and not at all within 53 bits. -/
theorem exists_worth_of_integral (integral : d.mantissa % 10 ^ d.scale = 0) :
    ∃ q, d.magnitude.IsWorth q ∧ Within 1 q d.size ∧
      (d.mantissa / 10 ^ d.scale ≤ 2 ^ 53 → q = d.size) := by
  have whole : d.size = (d.mantissa / 10 ^ d.scale : ℕ) := by
    rw [← d.parts_eq, integral, Nat.cast_zero, zero_div, add_zero]
  rw [magnitude_of_integral integral, whole]
  by_cases small : d.mantissa / 10 ^ d.scale ≤ 2 ^ 53
  · exact ⟨_, Binary.isWorth_ofNat small, (Within.refl (Nat.cast_nonneg _)).mono (Nat.zero_le 1),
      fun _ => rfl⟩
  · obtain ⟨q, worth, once⟩ := Binary.reaches_ofNat_of_le d.whole_le
    exact ⟨q, worth, once, fun other => absurd other small⟩

end Outcomes

/-! ## The nearest integer -/

/-- Decimals of few digits, and integers of 53 bits. -/
def IsShort (d : Decimal) : Prop :=
  d.mantissa < 2 ^ 50 ∨ d.mantissa % 10 ^ d.scale = 0 ∧ d.mantissa / 10 ^ d.scale ≤ 2 ^ 53

theorem size_nonneg (d : Decimal) : 0 ≤ d.size :=
  div_nonneg (Nat.cast_nonneg _) (Nat.cast_nonneg _)

/-- The integer nearest a number that some roundings lead to. -/
theorem near_of_isNearest {k : ℕ} {n : ℤ} (near : IsNearest q n) (within : Within k q d.size)
    (few : k ≤ 18) : |d.size - n| ≤ 1 / 2 + d.size * (19 * roundoff) := by
  have count : (k : ℚ) + 1 ≤ 19 := by
    have le : (k : ℚ) ≤ 18 := by exact_mod_cast few
    linarith
  calc |d.size - n| ≤ |d.size - q| + |q - n| := abs_sub_le _ _ _
    _ = |q - n| + |q - d.size| := by rw [abs_sub_comm d.size q, add_comm]
    _ ≤ 1 / 2 + d.size * ((k + 1) * roundoff) :=
      add_le_add near.near (within.abs_sub_le (by omega))
    _ ≤ 1 / 2 + d.size * (19 * roundoff) := by
      refine add_le_add le_rfl (mul_le_mul_of_nonneg_left ?_ d.size_nonneg)
      exact mul_le_mul_of_nonneg_right count (by norm_num [roundoff])

/-- Where one rounding leads to a number from a decimal of few digits, both have the same integer
nearest to them, since no half is between them. -/
theorem isNearest_of_few {n : ℤ} (near : IsNearest q n) (few : d.mantissa < 2 ^ 50)
    (once : Within 1 q d.size) (half : ((10 ^ d.scale : ℕ) : ℤ) ∣ 2 * d.mantissa → q = d.size) :
    IsNearest d.size n := by
  have width : (0 : ℚ) ≤ 2 * (10 ^ d.scale : ℕ) := by positivity
  have small : (d.mantissa : ℚ) < 2 ^ 50 := by exact_mod_cast few
  have gap : |q - d.size| * (2 * (10 ^ d.scale : ℕ)) < 1 := by
    calc |q - d.size| * (2 * (10 ^ d.scale : ℕ))
        ≤ d.size * (((1 : ℕ) + 1) * roundoff) * (2 * (10 ^ d.scale : ℕ)) :=
          mul_le_mul_of_nonneg_right (once.abs_sub_le (by decide)) width
      _ = d.size * (10 ^ d.scale : ℕ) * (4 * roundoff) := by push_cast; ring
      _ = d.mantissa * (4 * roundoff) := by rw [d.size_mul]
      _ < 2 ^ 50 * (4 * roundoff) := mul_lt_mul_of_pos_right small (by norm_num [roundoff])
      _ < 1 := by norm_num [roundoff]
  rw [size, ← Int.cast_natCast d.mantissa] at gap half ⊢
  exact near.of_near d.pow_scale_pos gap half

/-- Numbers below a half have zero nearest to them. -/
theorem isNearest_of_small {n : ℤ} (near : IsNearest q n) (nonneg : 0 ≤ q) (less : q < 1 / 2)
    (small : d.size < 1 / 2) : IsNearest d.size n ∧ |d.size - n| ≤ 1 / 2 := by
  have zero : n = 0 := by
    obtain ⟨low, high⟩ := abs_le.1 near.near
    have lower : (-1 : ℚ) < n := by linarith
    have upper : (n : ℚ) < 1 := by linarith
    have least : -1 < n := by exact_mod_cast lower
    have most : n < 1 := by exact_mod_cast upper
    omega
  have gap : |d.size - n| < 1 / 2 := by
    rwa [zero, Int.cast_zero, sub_zero, abs_of_nonneg d.size_nonneg]
  exact ⟨⟨gap.le, fun half => absurd half gap.ne⟩, gap.le⟩

/-- **The integer nearest the number of 64 bits** is the one nearest the decimal if that is short,
and near the decimal in any case. -/
theorem exists_nearest (d : Decimal) :
    ∃ q, d.magnitude.IsWorth q ∧ ∀ n, IsNearest q n →
      (d.IsShort → IsNearest d.size n) ∧ |d.size - n| ≤ 1 / 2 + d.size * (19 * roundoff) := by
  by_cases rest : d.mantissa % 10 ^ d.scale = 0
  · obtain ⟨q, worth, once, same⟩ := exists_worth_of_integral rest
    refine ⟨q, worth, fun n near => ⟨fun short => ?_, near_of_isNearest near once (by decide)⟩⟩
    have small : d.mantissa / 10 ^ d.scale ≤ 2 ^ 53 := by
      rcases short with few | ⟨-, small⟩
      · exact (Nat.div_le_self _ _).trans (few.le.trans (by decide))
      · exact small
    exact same small ▸ near
  rcases Nat.lt_or_ge d.mantissa (2 ^ 50) with few | many
  · rcases Nat.lt_or_ge 22 d.scale with fine | le
    · obtain ⟨tiny, q, worth, less⟩ := exists_worth_of_fine rest few fine
      refine ⟨q, worth, fun n near => ?_⟩
      obtain ⟨nearest, gap⟩ := isNearest_of_small near worth.nonneg less tiny
      have some : 0 ≤ d.size * (19 * roundoff) := mul_nonneg d.size_nonneg (by norm_num [roundoff])
      exact ⟨fun _ => nearest, gap.trans (le_add_of_nonneg_right some)⟩
    · obtain ⟨q, worth, once, half⟩ := exists_worth_of_few rest few le
      exact ⟨q, worth, fun n near => ⟨fun _ => isNearest_of_few near few once half,
        near_of_isNearest near once (by decide)⟩⟩
  · obtain ⟨q, worth, within⟩ := reaches_magnitude rest many
    refine ⟨q, worth, fun n near => ⟨fun short => ?_, near_of_isNearest near within (by decide)⟩⟩
    rcases short with few | ⟨integral, -⟩
    · omega
    · exact absurd integral rest

end Decimal

end RecordQuery
