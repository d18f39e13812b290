import Mathlib.Algebra.Order.Ring.Pow
import Mathlib.Data.Nat.Cast.Order.Field
import Mathlib.Data.Rat.Cast.Order
import Mathlib.Tactic.FieldSimp
import Mathlib.Tactic.Linarith
import Mathlib.Tactic.Positivity
import Mathlib.Tactic.Ring
import RecordQuery.Proofs.Number.Intervals

/-!
# What roundings do to a value

A number of 64 bits is worth a rational number. A computation that rounds `k` times on its way to a
positive number ends within the factor `(1 - 2 ^ -53) ^ k` of it, in either direction, as long as no
step leaves the range in which numbers have all their bits.

* `IsNearest` and `isNearest_halfEven`: the nearest integer;
* `Format.abs_round_sub_le`: one rounding;
* `Within`: so many roundings, with `Within.mul`, `Within.div` and `Within.add`;
* `Binary.Reaches`: a number that was computed so, with one lemma for each operation.
-/

namespace RecordQuery

/-! ## The nearest integer -/

/-- The integer nearest a number; of two such integers it is the even one. -/
structure IsNearest (q : ℚ) (n : ℤ) : Prop where
  near : |q - n| ≤ 1 / 2
  even : |q - n| = 1 / 2 → Even n

theorem IsNearest.neg {q : ℚ} {n : ℤ} (h : IsNearest q n) : IsNearest (-q) (-n) := by
  have same : |-q - ((-n : ℤ) : ℚ)| = |q - n| := by
    rw [← abs_neg]
    congr 1
    push_cast
    ring
  constructor
  · rw [same]
    exact h.near
  · rw [same]
    exact fun half => (h.even half).neg

section Quotients

variable {num n : ℤ} {den : ℕ}

/-- The distance of an integer from a quotient, counted in halves of the divisor. -/
theorem abs_div_sub_mul (pos : 0 < den) :
    |(num / den : ℚ) - n| * (2 * den) = (|2 * num - 2 * (n * den)| : ℤ) := by
  have width : (0 : ℚ) < den := by exact_mod_cast pos
  rw [← abs_of_pos (mul_pos two_pos width), ← abs_mul, Int.cast_abs]
  congr 1
  push_cast
  field_simp

theorem abs_div_sub_le_iff (pos : 0 < den) :
    |(num / den : ℚ) - n| ≤ 1 / 2 ↔ |2 * num - 2 * (n * den)| ≤ den := by
  have width : (0 : ℚ) < 2 * den := by exact_mod_cast Nat.mul_pos two_pos pos
  have whole : 1 / 2 * (2 * (den : ℚ)) = den := by ring
  rw [← mul_le_mul_iff_left₀ width, abs_div_sub_mul pos, whole]
  exact_mod_cast Iff.rfl

theorem abs_div_sub_eq_iff (pos : 0 < den) :
    |(num / den : ℚ) - n| = 1 / 2 ↔ |2 * num - 2 * (n * den)| = den := by
  have width : (0 : ℚ) < 2 * den := by exact_mod_cast Nat.mul_pos two_pos pos
  have whole : 1 / 2 * (2 * (den : ℚ)) = den := by ring
  rw [← mul_left_inj' width.ne', abs_div_sub_mul pos, whole]
  exact_mod_cast Iff.rfl

/-- Integers tell whether an integer is nearest a quotient. -/
theorem isNearest_div_iff (pos : 0 < den) :
    IsNearest (num / den) n ↔
      |2 * num - 2 * (n * den)| ≤ den ∧ (|2 * num - 2 * (n * den)| = den → Even n) := by
  rw [← abs_div_sub_le_iff pos, ← abs_div_sub_eq_iff pos]
  exact ⟨fun h => ⟨h.near, h.even⟩, fun h => ⟨h.1, h.2⟩⟩

/-- A quotient of integers has no other nearest integer than a number that is too near to it for any
half to lie between them, unless the quotient is a half itself. -/
theorem IsNearest.of_near {q : ℚ} (h : IsNearest q n) (pos : 0 < den)
    (near : |q - num / den| * (2 * den) < 1) (tie : (den : ℤ) ∣ 2 * num → q = num / den) :
    IsNearest (num / den) n := by
  have width : (0 : ℚ) < 2 * den := by exact_mod_cast Nat.mul_pos two_pos pos
  have whole : 1 / 2 * (2 * (den : ℚ)) = den := by ring
  refine (isNearest_div_iff pos).2 ⟨?_, fun half => ?_⟩
  · have apart : |(num / den : ℚ) - n| ≤ |q - num / den| + |q - n| := by
      rw [← abs_sub_comm (num / den : ℚ) q]
      exact abs_sub_le _ _ _
    have scaled := mul_le_mul_of_nonneg_right apart width.le
    have part := mul_le_mul_of_nonneg_right h.near width.le
    rw [abs_div_sub_mul pos, add_mul] at scaled
    rw [whole] at part
    have less : ((|2 * num - 2 * (n * den)| : ℤ) : ℚ) < den + 1 := by linarith
    exact Int.lt_add_one_iff.1 (by exact_mod_cast less)
  · have even : (den : ℤ) ∣ 2 * num := by
      have factor : (den : ℤ) ∣ 2 * num - 2 * (n * den) := by
        rw [← dvd_abs, half]
      exact (dvd_sub_left ⟨2 * n, by ring⟩).1 factor
    have same := tie even
    subst same
    exact h.even ((abs_div_sub_eq_iff pos).2 half)

end Quotients

theorem isNearest_halfEven {num den : ℕ} (pos : 0 < den) :
    IsNearest (num / den) (halfEven num den : ℕ) := by
  have parts := Nat.div_add_mod' num den
  have rest := Nat.mod_lt num pos
  rw [← Int.cast_natCast num, isNearest_div_iff pos]
  unfold halfEven
  dsimp only
  generalize num / den = q at *
  generalize num % den = r at *
  subst parts
  have gap (k : ℕ) : 2 * ((q * den + r : ℕ) : ℤ) - 2 * ((q + k : ℕ) * den) =
      2 * r - 2 * k * den := by
    push_cast
    ring
  split
  · next less =>
    have size := gap 0
    rw [Nat.add_zero] at size
    rw [size, Nat.cast_zero, mul_zero, zero_mul, sub_zero, abs_of_nonneg (by positivity)]
    exact ⟨by omega, fun same => by omega⟩
  · split
    · next more =>
      rw [gap 1, Nat.cast_one, mul_one, abs_of_nonpos (by omega)]
      exact ⟨by omega, fun same => by omega⟩
    · next equal =>
      have half : 2 * r = den := by omega
      rcases Nat.mod_two_eq_zero_or_one q with even | odd
      · rw [even, gap 0, Nat.cast_zero, mul_zero, zero_mul, sub_zero, abs_of_nonneg (by positivity)]
        exact ⟨by omega, fun _ => (Int.even_coe_nat q).2 (Nat.even_iff.2 even)⟩
      · rw [odd, gap 1, Nat.cast_one, mul_one, abs_of_nonpos (by omega)]
        exact ⟨by omega, fun _ => (Int.even_coe_nat (q + 1)).2 (Nat.even_iff.2 (by omega))⟩

theorem abs_halfUp_sub_le {num den : ℕ} (pos : 0 < den) :
    |(num / den : ℚ) - (halfUp num den : ℕ)| ≤ 1 / 2 := by
  have parts := Nat.div_add_mod' num den
  have rest := Nat.mod_lt num pos
  rw [← Int.cast_natCast num, ← Int.cast_natCast (halfUp num den), abs_div_sub_le_iff pos]
  unfold halfUp
  generalize num / den = q at *
  generalize num % den = r at *
  subst parts
  split
  · rw [show 2 * ((q * den + r : ℕ) : ℤ) - 2 * ((q : ℕ) * den) = 2 * r by push_cast; ring,
      abs_of_nonneg (by positivity)]
    omega
  · rw [show 2 * ((q * den + r : ℕ) : ℤ) - 2 * ((q + 1 : ℕ) * den) = 2 * r - 2 * den by
      push_cast; ring, abs_of_nonpos (by omega)]
    omega

/-! ## One rounding -/

/-- **Rounding to a binary format** is off by half a unit in the last place at most. -/
theorem Format.abs_round_sub_le {f : Format} {num den : ℕ} (pos : 0 < den)
    (normal : 2 ^ (f.precision - 1) ≤ num / den) :
    |(f.round num den : ℚ) - num / den| ≤ num / den / (2 ^ f.precision : ℕ) := by
  have width : (0 : ℚ) < den := by exact_mod_cast pos
  have step : 0 < 2 ^ f.spacing (num / den) := Nat.two_pow_pos _
  have room : (0 : ℚ) < (2 ^ f.spacing (num / den) : ℕ) := by exact_mod_cast step
  have reached : 2 ^ (f.precision - 1) * 2 ^ f.spacing (num / den) ≤ num / den := by
    by_cases fine : f.spacing (num / den) = 0
    · rw [fine, Nat.pow_zero, Nat.mul_one]
      exact normal
    · rw [← Nat.pow_add]
      exact (f.spacing_spec _).2 fine
  have floor : ((num / den : ℕ) : ℚ) ≤ num / den := Nat.cast_div_le
  have start : ((2 ^ (f.precision - 1) : ℕ) : ℚ) * (2 ^ f.spacing (num / den) : ℕ) ≤ num / den := by
    refine le_trans ?_ floor
    exact_mod_cast reached
  have whole : ((2 ^ f.precision : ℕ) : ℚ) = 2 * (2 ^ (f.precision - 1) : ℕ) := by
    have double : 2 ^ f.precision = 2 * 2 ^ (f.precision - 1) := by
      have precision := f.precision_pos
      rw [← Nat.pow_succ']
      congr 1
      omega
    exact_mod_cast double
  have near : |(num / (den * 2 ^ f.spacing (num / den) : ℕ) : ℚ) -
      ((halfEven num (den * 2 ^ f.spacing (num / den)) : ℕ) : ℤ)| ≤ 1 / 2 :=
    (isNearest_halfEven (Nat.mul_pos pos step)).near
  have scaled : (f.round num den : ℚ) - num / den =
      -((num / (den * 2 ^ f.spacing (num / den) : ℕ) -
        ((halfEven num (den * 2 ^ f.spacing (num / den)) : ℕ) : ℤ)) *
          (2 ^ f.spacing (num / den) : ℕ)) := by
    rw [round, Int.cast_natCast, Nat.cast_mul, Nat.cast_mul]
    field_simp
    ring
  rw [scaled, abs_neg, abs_mul, abs_of_pos room, le_div_iff₀ (by positivity), whole]
  calc _ ≤ 1 / 2 * ((2 ^ f.spacing (num / den) : ℕ) : ℚ) * (2 * (2 ^ (f.precision - 1) : ℕ)) := by
        gcongr
    _ = (2 ^ (f.precision - 1) : ℕ) * (2 ^ f.spacing (num / den) : ℕ) := by ring
    _ ≤ num / den := start

/-! ## Several roundings -/

/-- The part of a number that one rounding to 64 bits can change. -/
def roundoff : ℚ := 1 / 2 ^ 53

/-- `x` comes from `q` by at most `k` roundings. -/
structure Within (k : ℕ) (x q : ℚ) : Prop where
  nonneg : 0 ≤ q
  low : q * (1 - roundoff) ^ k ≤ x
  high : x * (1 - roundoff) ^ k ≤ q

namespace Within

variable {j k : ℕ} {x y p q : ℚ}

theorem shrink_pos (k : ℕ) : 0 < (1 - roundoff) ^ k := by
  exact pow_pos (by norm_num [roundoff]) k

theorem one_sub_le (k : ℕ) : 1 - k * roundoff ≤ (1 - roundoff) ^ k := by
  have bernoulli := one_add_mul_le_pow (a := -roundoff) (by norm_num [roundoff]) k
  rwa [mul_neg, ← sub_eq_add_neg, ← sub_eq_add_neg] at bernoulli

theorem refl (nonneg : 0 ≤ q) : Within 0 q q := ⟨nonneg, by simp, by simp⟩

theorem value_nonneg (h : Within k x q) : 0 ≤ x :=
  (mul_nonneg h.nonneg (shrink_pos k).le).trans h.low

theorem mono (h : Within j x q) (le : j ≤ k) : Within k x q := by
  have less : (1 - roundoff) ^ k ≤ (1 - roundoff) ^ j :=
    pow_le_pow_of_le_one (by norm_num [roundoff]) (by norm_num [roundoff]) le
  exact ⟨h.nonneg, (mul_le_mul_of_nonneg_left less h.nonneg).trans h.low,
    (mul_le_mul_of_nonneg_left less h.value_nonneg).trans h.high⟩

theorem trans (hx : Within j x y) (hy : Within k y q) : Within (j + k) x q := by
  refine ⟨hy.nonneg, ?_, ?_⟩
  · calc q * (1 - roundoff) ^ (j + k) = q * (1 - roundoff) ^ k * (1 - roundoff) ^ j := by ring
      _ ≤ y * (1 - roundoff) ^ j := mul_le_mul_of_nonneg_right hy.low (shrink_pos j).le
      _ ≤ x := hx.low
  · calc x * (1 - roundoff) ^ (j + k) = x * (1 - roundoff) ^ j * (1 - roundoff) ^ k := by ring
      _ ≤ y * (1 - roundoff) ^ k := mul_le_mul_of_nonneg_right hx.high (shrink_pos k).le
      _ ≤ q := hy.high

theorem add (hx : Within k x p) (hy : Within k y q) : Within k (x + y) (p + q) := by
  refine ⟨add_nonneg hx.nonneg hy.nonneg, ?_, ?_⟩
  · rw [add_mul]
    exact add_le_add hx.low hy.low
  · rw [add_mul]
    exact add_le_add hx.high hy.high

theorem mul (hx : Within j x p) (hy : Within k y q) : Within (j + k) (x * y) (p * q) := by
  refine ⟨mul_nonneg hx.nonneg hy.nonneg, ?_, ?_⟩
  · calc p * q * (1 - roundoff) ^ (j + k)
        = p * (1 - roundoff) ^ j * (q * (1 - roundoff) ^ k) := by ring
      _ ≤ x * y := mul_le_mul hx.low hy.low (mul_nonneg hy.nonneg (shrink_pos k).le) hx.value_nonneg
  · calc x * y * (1 - roundoff) ^ (j + k)
        = x * (1 - roundoff) ^ j * (y * (1 - roundoff) ^ k) := by ring
      _ ≤ p * q :=
        mul_le_mul hx.high hy.high (mul_nonneg hy.value_nonneg (shrink_pos k).le) hx.nonneg

theorem value_pos (h : Within k x q) (pos : 0 < q) : 0 < x :=
  (mul_pos pos (shrink_pos k)).trans_le h.low

theorem inv (h : Within k x q) (pos : 0 < q) : Within k x⁻¹ q⁻¹ := by
  have some := h.value_pos pos
  refine ⟨(inv_pos.2 pos).le, ?_, ?_⟩
  · rw [inv_mul_le_iff₀ pos, ← div_eq_mul_inv, le_div_iff₀ some, mul_comm]
    exact h.high
  · rw [inv_mul_le_iff₀ some, ← div_eq_mul_inv, le_div_iff₀ pos, mul_comm]
    exact h.low

theorem div (hx : Within j x p) (hy : Within k y q) (pos : 0 < q) :
    Within (j + k) (x / y) (p / q) := by
  rw [div_eq_mul_inv, div_eq_mul_inv]
  exact hx.mul (hy.inv pos)

/-- One rounding. -/
theorem of_abs_sub_le (nonneg : 0 ≤ q) (h : |x - q| ≤ q * roundoff) : Within 1 x q := by
  obtain ⟨low, high⟩ := abs_le.1 h
  refine ⟨nonneg, ?_, ?_⟩
  · rw [pow_one, mul_one_sub]
    linarith
  · have upper : x ≤ q * (1 + roundoff) := by rw [mul_one_add]; linarith
    calc x * (1 - roundoff) ^ 1 ≤ q * (1 + roundoff) * (1 - roundoff) ^ 1 :=
          mul_le_mul_of_nonneg_right upper (shrink_pos 1).le
      _ = q - q * (roundoff * roundoff) := by ring
      _ ≤ q := sub_le_self q (mul_nonneg nonneg (by norm_num [roundoff]))

/-- A few roundings change hardly more than their number says. -/
theorem abs_sub_le (h : Within k x q) (few : k ≤ 20) : |x - q| ≤ q * ((k + 1) * roundoff) := by
  have count : (k : ℚ) ≤ 20 := by exact_mod_cast few
  have some : (0 : ℚ) ≤ k := Nat.cast_nonneg k
  have unit : 0 < roundoff := by norm_num [roundoff]
  have part : q * 0 ≤ q * roundoff := mul_le_mul_of_nonneg_left unit.le h.nonneg
  have room : k * ((k + 1) * roundoff) ≤ 1 := by
    have le : k * ((k + 1) * roundoff) ≤ 20 * (21 * roundoff) := by
      gcongr
      linarith
    exact le.trans (by norm_num [roundoff])
  have left : 0 < 1 - k * roundoff := by
    have le : k * roundoff ≤ 20 * roundoff := mul_le_mul_of_nonneg_right count unit.le
    have less : 20 * roundoff < 1 := by norm_num [roundoff]
    linarith
  have low := (mul_le_mul_of_nonneg_left (one_sub_le k) h.nonneg).trans h.low
  have high := (mul_le_mul_of_nonneg_left (one_sub_le k) h.value_nonneg).trans h.high
  refine abs_le.2 ⟨by linarith, le_of_not_gt fun far => ?_⟩
  have back : q ≤ q * (1 + (k + 1) * roundoff) * (1 - k * roundoff) := by
    have gain := mul_nonneg (mul_nonneg h.nonneg unit.le) (sub_nonneg.2 room)
    linarith
  have grown := mul_lt_mul_of_pos_right
    (show q * (1 + (k + 1) * roundoff) < x by linarith) left
  linarith

/-- A few roundings do not halve a number, nor double it. -/
theorem half_le (h : Within k x q) (few : k ≤ 20) : q / 2 ≤ x ∧ x ≤ 2 * q := by
  have count : (k : ℚ) ≤ 20 := by exact_mod_cast few
  have unit : 0 < roundoff := by norm_num [roundoff]
  have part : q * ((k + 1) * roundoff) ≤ q * (1 / 2) := by
    refine mul_le_mul_of_nonneg_left ?_ h.nonneg
    have le : (k + 1) * roundoff ≤ 21 * roundoff := by
      gcongr
      linarith
    exact le.trans (by norm_num [roundoff])
  obtain ⟨low, high⟩ := abs_le.1 (h.abs_sub_le few)
  exact ⟨by linarith, by linarith [h.nonneg]⟩

end Within

/-! ## Computed numbers -/

/-- Numbers that are far from the ends of the range, also after a few roundings. -/
structure Moderate (q : ℚ) : Prop where
  low : 1 / 2 ^ 100 ≤ q
  high : q ≤ 2 ^ 100

theorem Moderate.pos {q : ℚ} (h : Moderate q) : 0 < q :=
  lt_of_lt_of_le (by positivity) h.low

theorem moderate_natCast {n : ℕ} (some : 0 < n) (le : n ≤ 2 ^ 100) : Moderate n := by
  have one : (1 : ℚ) ≤ n := by exact_mod_cast some
  exact ⟨le_trans (by norm_num) one, by exact_mod_cast le⟩

/-- The units of 64 bits in one. -/
def unitsOfOne : ℚ := 2 ^ Format.double.unit

theorem unitsOfOne_eq : unitsOfOne = ((2 ^ Format.double.unit : ℕ) : ℚ) := by
  rw [Nat.cast_pow, Nat.cast_ofNat, unitsOfOne]

theorem unitsOfOne_pos : 0 < unitsOfOne := pow_pos two_pos _

namespace Binary

variable {x y : Double} {p q z : ℚ} {num den j k : ℕ}

/-- A finite number without a minus sign, by what it is worth. -/
def IsWorth (x : Double) (q : ℚ) : Prop :=
  ∃ units h, x = .finite false units h ∧ (units : ℚ) = q * unitsOfOne

/-- A number that at most `k` roundings lead to from `q`. -/
def Reaches (x : Double) (k : ℕ) (q : ℚ) : Prop := ∃ p, x.IsWorth p ∧ Within k p q

theorem IsWorth.reaches (h : x.IsWorth q) (nonneg : 0 ≤ q) : x.Reaches 0 q := ⟨q, h, .refl nonneg⟩

theorem IsWorth.nonneg (h : x.IsWorth q) : 0 ≤ q := by
  obtain ⟨units, -, -, worth⟩ := h
  refine nonneg_of_mul_nonneg_left ?_ unitsOfOne_pos
  rw [← worth]
  exact Nat.cast_nonneg units

/-- A quotient that is a number of the format is this number. -/
theorem isWorth_ofUnitRatio_of_representable {units : ℕ} (pos : 0 < den) (exact : num = units * den)
    (h : Format.double.Representable units) (worth : (units : ℚ) = q * unitsOfOne) :
    (ofUnitRatio .double false num den).IsWorth q := by
  subst exact
  have same : Format.double.round (units * den) den = units := by
    rw [Format.round_mul_self pos, Format.round_of_representable h]
  refine ⟨units, h, ?_, worth⟩
  rw [ofUnitRatio, dif_pos (same.symm ▸ h.lt_bound)]
  simp only [same]

/-- **Rounding a moderate number** is one rounding. -/
theorem isWorth_ofUnitRatio (pos : 0 < den) (value : (num / den : ℚ) = z * unitsOfOne)
    (low : 1 / 2 ^ 101 ≤ z) (high : z ≤ 2 ^ 101) :
    ∃ p, (ofUnitRatio .double false num den).IsWorth p ∧ Within 1 p z := by
  have width : (0 : ℚ) < den := by exact_mod_cast pos
  have some : 0 ≤ z := le_trans (by positivity) low
  have normal : 2 ^ (Format.double.precision - 1) ≤ num / den := by
    rw [Nat.le_div_iff_mul_le pos]
    have le : ((2 ^ (Format.double.precision - 1) : ℕ) : ℚ) ≤ num / den := by
      rw [value]
      calc ((2 ^ (Format.double.precision - 1) : ℕ) : ℚ) ≤ 1 / 2 ^ 101 * unitsOfOne := by
            rw [unitsOfOne, one_div_mul_eq_div, le_div_iff₀ (by positivity), Nat.cast_pow,
              Nat.cast_ofNat, ← pow_add]
            exact pow_le_pow_right₀ one_le_two (by decide)
        _ ≤ z * unitsOfOne := mul_le_mul_of_nonneg_right low unitsOfOne_pos.le
    rw [le_div_iff₀ width] at le
    exact_mod_cast le
  have error := Format.abs_round_sub_le (f := .double) pos normal
  have precision : ((2 ^ Format.double.precision : ℕ) : ℚ) = 2 ^ 53 := by
    rw [Nat.cast_pow, Nat.cast_ofNat]
    rfl
  rw [value, precision] at error
  have bound : Format.double.round num den < 2 ^ Format.double.bound := by
    have upper : (Format.double.round num den : ℚ) ≤ 2 * (z * unitsOfOne) := by
      have whole : 0 ≤ z * unitsOfOne := mul_nonneg some unitsOfOne_pos.le
      have part : z * unitsOfOne / 2 ^ 53 ≤ z * unitsOfOne := div_le_self whole (by norm_num)
      linarith [(abs_le.1 error).2]
    have less : 2 * (z * unitsOfOne) < (2 ^ Format.double.bound : ℕ) := by
      calc 2 * (z * unitsOfOne) ≤ 2 * (2 ^ 101 * unitsOfOne) :=
            mul_le_mul_of_nonneg_left (mul_le_mul_of_nonneg_right high unitsOfOne_pos.le) two_pos.le
        _ = 2 ^ (1 + 101 + Format.double.unit) := by
            rw [unitsOfOne, pow_add, pow_add, pow_one, mul_assoc]
        _ < 2 ^ Format.double.bound := pow_lt_pow_right₀ one_lt_two (by decide)
        _ = (2 ^ Format.double.bound : ℕ) := by rw [Nat.cast_pow, Nat.cast_ofNat]
    exact_mod_cast upper.trans_lt less
  refine ⟨Format.double.round num den / unitsOfOne,
    ⟨_, Format.double.round_representable bound, ?_, ?_⟩, ?_⟩
  · rw [ofUnitRatio, dif_pos bound]
  · rw [div_mul_cancel₀ _ unitsOfOne_pos.ne']
  · refine .of_abs_sub_le some ?_
    rw [← mul_le_mul_iff_left₀ unitsOfOne_pos, ← abs_of_pos unitsOfOne_pos, ← abs_mul, sub_mul,
      abs_of_pos unitsOfOne_pos, div_mul_cancel₀ _ unitsOfOne_pos.ne']
    exact error.trans_eq (by rw [roundoff]; ring)

/-- A number that was reached is rounded once more. -/
theorem reaches_ofUnitRatio (pos : 0 < den) (value : (num / den : ℚ) = z * unitsOfOne)
    (h : Within k z q) (few : k < 20) (size : Moderate q) :
    (ofUnitRatio .double false num den).Reaches (k + 1) q := by
  obtain ⟨half, twice⟩ := h.half_le few.le
  obtain ⟨p, worth, once⟩ := isWorth_ofUnitRatio pos value (by linarith [size.low]) (by
    linarith [size.high])
  exact ⟨p, worth, Nat.add_comm 1 k ▸ once.trans h⟩

/-! ### Operations -/

theorem reaches_ofNat {n : ℕ} (size : Moderate n) : (ofInt .double n).Reaches 1 n := by
  have sign : decide ((n : ℤ) < 0) = false := decide_eq_false (Int.not_lt.2 (Int.natCast_nonneg n))
  rw [ofInt, ofRatio, sign, Int.natAbs_natCast]
  refine reaches_ofUnitRatio one_pos ?_ (.refl (Nat.cast_nonneg n)) (by decide) size
  rw [Nat.cast_one, div_one, Nat.cast_mul, unitsOfOne_eq]

theorem isWorth_ofNat_of_representable {n : ℕ}
    (held : Format.double.Representable (n * 2 ^ Format.double.unit)) :
    (ofInt .double n).IsWorth n := by
  have sign : decide ((n : ℤ) < 0) = false := decide_eq_false (Int.not_lt.2 (Int.natCast_nonneg n))
  rw [ofInt, ofRatio, sign, Int.natAbs_natCast]
  refine isWorth_ofUnitRatio_of_representable one_pos (mul_one _).symm held ?_
  rw [Nat.cast_mul, unitsOfOne_eq]

/-- Integers of up to 53 bits are exact. -/
theorem isWorth_ofNat {n : ℕ} (small : n ≤ 2 ^ 53) : (ofInt .double n).IsWorth n :=
  isWorth_ofNat_of_representable (Format.representable_mul_two_pow_unit small (by decide))

/-- So are powers of ten, up to the twenty-second. -/
theorem isWorth_pow_ten {s : ℕ} (le : s ≤ 22) :
    (ofInt .double (10 ^ s : ℕ)).IsWorth (10 ^ s : ℕ) := by
  have odd : 5 ^ s < 2 ^ Format.double.precision :=
    Nat.lt_of_le_of_lt (Nat.pow_le_pow_right (by decide) le) (by decide)
  have exact : 10 ^ s * 2 ^ Format.double.unit = 5 ^ s * 2 ^ (s + Format.double.unit) := by
    rw [Nat.pow_add, ← Nat.mul_assoc, ← Nat.mul_pow]
  refine isWorth_ofNat_of_representable ?_
  rw [exact]
  refine Format.representable_mul_two_pow odd ?_
  rw [Format.double]
  dsimp only
  omega

theorem Reaches.mono (hx : x.Reaches j q) (le : j ≤ k) : x.Reaches k q := by
  obtain ⟨p, worth, near⟩ := hx
  exact ⟨p, worth, near.mono le⟩

theorem reaches_ofNat_of_le {n : ℕ} (le : n ≤ 2 ^ 100) : (ofInt .double n).Reaches 1 n := by
  rcases Nat.eq_zero_or_pos n with rfl | some
  · exact ((isWorth_ofNat (by decide)).reaches (Nat.cast_nonneg 0)).mono (Nat.zero_le 1)
  · exact reaches_ofNat (moderate_natCast some le)

theorem Reaches.add (hx : x.Reaches k p) (hy : y.Reaches k q) (few : k < 20)
    (size : Moderate (p + q)) : (x.add y).Reaches (k + 1) (p + q) := by
  obtain ⟨a, ⟨m, hm, rfl, left⟩, hp⟩ := hx
  obtain ⟨b, ⟨n, hn, rfl, right⟩, hq⟩ := hy
  have worth : ((m + n : ℕ) : ℚ) = (a + b) * unitsOfOne := by
    rw [Nat.cast_add, left, right, add_mul]
  have some : 0 < m + n := by
    have pos := mul_pos ((hp.add hq).value_pos size.pos) unitsOfOne_pos
    rw [← worth] at pos
    exact_mod_cast pos
  have sum : signed false m + signed false n = ((m + n : ℕ) : ℤ) := rfl
  have other : ¬ ((m + n : ℕ) : ℤ) = 0 := by omega
  have sign : decide (((m + n : ℕ) : ℤ) < 0) = false := decide_eq_false (by omega)
  rw [Binary.add, sum, if_neg other, sign, Int.natAbs_natCast]
  refine reaches_ofUnitRatio one_pos ?_ (hp.add hq) few size
  rw [Nat.cast_one, div_one, worth]

theorem Reaches.mul (hx : x.Reaches j p) (hy : y.Reaches k q) (few : j + k < 20)
    (size : Moderate (p * q)) : (x.mul y).Reaches (j + k + 1) (p * q) := by
  obtain ⟨a, ⟨m, hm, rfl, left⟩, hp⟩ := hx
  obtain ⟨b, ⟨n, hn, rfl, right⟩, hq⟩ := hy
  refine reaches_ofUnitRatio (Nat.two_pow_pos _) ?_ (hp.mul hq) few size
  rw [Nat.cast_mul, left, right, ← unitsOfOne_eq, div_eq_iff unitsOfOne_pos.ne']
  ring

theorem Reaches.div (hx : x.Reaches j p) (hy : y.Reaches k q) (pos : 0 < q) (few : j + k < 20)
    (size : Moderate (p / q)) : (x.div y).Reaches (j + k + 1) (p / q) := by
  obtain ⟨a, ⟨m, hm, rfl, left⟩, hp⟩ := hx
  obtain ⟨b, ⟨n, hn, rfl, right⟩, hq⟩ := hy
  have divisor := hq.value_pos pos
  have some : 0 < n := by
    have units := mul_pos divisor unitsOfOne_pos
    rw [← right] at units
    exact_mod_cast units
  rw [Binary.div, if_neg some.ne', ofRatio]
  refine reaches_ofUnitRatio some ?_ (hp.div hq pos) few size
  rw [Nat.cast_mul, left, right, ← unitsOfOne_eq, div_eq_iff (mul_pos divisor unitsOfOne_pos).ne']
  field_simp [divisor.ne']

/-- A quotient that the format holds is exact. -/
theorem IsWorth.div {units : ℕ} (hx : x.IsWorth p) (hy : y.IsWorth q) (pos : 0 < q)
    (held : Format.double.Representable units) (worth : (units : ℚ) = p / q * unitsOfOne) :
    (x.div y).IsWorth (p / q) := by
  obtain ⟨m, hm, rfl, left⟩ := hx
  obtain ⟨n, hn, rfl, right⟩ := hy
  have some : 0 < n := by
    have whole := mul_pos pos unitsOfOne_pos
    rw [← right] at whole
    exact_mod_cast whole
  rw [Binary.div, if_neg some.ne', ofRatio]
  refine isWorth_ofUnitRatio_of_representable some ?_ held worth
  have exact : (m : ℚ) * unitsOfOne = units * n := by
    rw [left, right, worth]
    field_simp [pos.ne']
  rw [unitsOfOne_eq] at exact
  exact_mod_cast exact

end Binary

end RecordQuery
