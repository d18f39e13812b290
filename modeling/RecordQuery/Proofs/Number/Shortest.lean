import Mathlib.Algebra.Order.Field.Power
import Mathlib.Data.Rat.Cast.Order
import Mathlib.Tactic.FieldSimp
import Mathlib.Tactic.Linarith
import Mathlib.Tactic.Positivity
import Mathlib.Tactic.Ring
import RecordQuery.Proofs.Number.Intervals
import RecordQuery.Proofs.Text.Digits

/-!
# The shortest decimal lies in the interval

The grids of decimals that are tried begin at about the size of the number. Twenty of them are
enough for both formats, so a decimal is found, and it lies in the interval of the reals that round
to the number. It lies in no other one.

* `Interval.Contains`: the points of an interval;
* `Interval.exists_pick?`: a grid that is fine enough has a point in the interval;
* `shortest_spec`: the shortest decimal is a point of the interval;
* `Interval.Contains.units_eq`: the intervals of different numbers have no point in common.
-/

namespace RecordQuery

open Text

/-! ## Points of an interval -/

namespace Interval

/-- A rational number lies in the interval. -/
structure Contains (i : Interval) (x : ℚ) : Prop where
  low_le : (i.low : ℚ) ≤ x * i.den
  le_high : x * i.den ≤ i.high
  inside : i.closed = false → i.low < x * i.den ∧ x * i.den < i.high

/-- The interval in powers of ten is the same one over another denominator. -/
theorem inPowers_spec (i : Interval) (e : ℤ) :
    ∃ scale : ℚ, 0 < scale ∧ ((i.inPowers e).low : ℚ) = i.low * scale ∧
      ((i.inPowers e).value : ℚ) = i.value * scale ∧
      ((i.inPowers e).high : ℚ) = i.high * scale ∧
      ((i.inPowers e).den : ℚ) = 10 ^ e * i.den * scale ∧ (i.inPowers e).closed = i.closed := by
  cases e with
  | ofNat e =>
    refine ⟨1, one_pos, ?_⟩
    simp [inPowers, mul_comm]
  | negSucc e =>
    refine ⟨10 ^ (e + 1), by positivity, ?_⟩
    simp only [inPowers, zpow_negSucc, Nat.cast_mul, Nat.cast_pow, Nat.cast_ofNat, true_and,
      and_true]
    field_simp

/-- What a grid finds in an interval is a point of it. -/
theorem contains_of_holds {i : Interval} {e : ℤ} {n : ℕ} (h : (i.inPowers e).holds n = true) :
    i.Contains (n * 10 ^ e) := by
  obtain ⟨scale, pos, low, -, high, den, closed⟩ := i.inPowers_spec e
  have point : (n : ℚ) * (i.inPowers e).den = n * 10 ^ e * i.den * scale := by
    rw [den]
    ring
  have ends : (i.inPowers e).low ≤ n * (i.inPowers e).den ∧
      n * (i.inPowers e).den ≤ (i.inPowers e).high ∧
      (i.closed = false → (i.inPowers e).low < n * (i.inPowers e).den ∧
        n * (i.inPowers e).den < (i.inPowers e).high) := by
    unfold holds at h
    rw [closed] at h
    split at h
    · next own =>
      simp only [Bool.and_eq_true, decide_eq_true_eq] at h
      exact ⟨h.1, h.2, fun other => absurd (own.symm.trans other) Bool.noConfusion⟩
    · simp only [Bool.and_eq_true, decide_eq_true_eq] at h
      exact ⟨h.1.le, h.2.le, fun _ => h⟩
  obtain ⟨start, stop, strict⟩ := ends
  refine ⟨?_, ?_, fun own => ?_⟩
  · refine le_of_mul_le_mul_right ?_ pos
    rw [← low, ← point]
    exact_mod_cast start
  · refine le_of_mul_le_mul_right ?_ pos
    rw [← high, ← point]
    exact_mod_cast stop
  · obtain ⟨above, below⟩ := strict own
    refine ⟨lt_of_mul_lt_mul_right ?_ pos.le, lt_of_mul_lt_mul_right ?_ pos.le⟩
    · rw [← low, ← point]
      exact_mod_cast above
    · rw [← high, ← point]
      exact_mod_cast below

theorem contains_of_pick? {i : Interval} {e : ℤ} {tie : DecimalTie} {n : ℕ}
    (h : (i.inPowers e).pick? tie = some n) : i.Contains (n * 10 ^ e) := by
  refine contains_of_holds ?_
  generalize i.inPowers e = grid at h
  simp only [pick?] at h
  split at h
  · next down up =>
    split at h
    · obtain rfl := Option.some.inj h
      exact down
    · split at h
      · obtain rfl := Option.some.inj h
        exact up
      · cases tie with
        | up =>
          obtain rfl := Option.some.inj h
          exact up
        | even =>
          obtain rfl := Option.some.inj h
          rcases Nat.mod_two_eq_zero_or_one (grid.value / grid.den) with parity | parity
          · rw [parity]
            exact down
          · rw [parity]
            exact up
  · next down _ =>
    obtain rfl := Option.some.inj h
    exact down
  · next _ up =>
    obtain rfl := Option.some.inj h
    exact up
  · cases h

/-- How the ends of an interval compare on a grid that is no wider than its lower part. -/
theorem fine_inPowers {i : Interval} {e : ℤ} (pos : 0 < i.den)
    (fine : (10 : ℚ) ^ e * i.den ≤ i.value - i.low) (above : i.value < i.high) :
    0 < (i.inPowers e).den ∧
      (i.inPowers e).low + (i.inPowers e).den ≤ (i.inPowers e).value ∧
      (i.inPowers e).value < (i.inPowers e).high := by
  obtain ⟨scale, some, low, value, high, den, -⟩ := i.inPowers_spec e
  have width : (0 : ℚ) < i.den := by exact_mod_cast pos
  have order : (i.value : ℚ) < i.high := by exact_mod_cast above
  have power : (0 : ℚ) < 10 ^ e := by positivity
  refine ⟨?_, ?_, ?_⟩
  · have cast : (0 : ℚ) < (i.inPowers e).den := by
      rw [den]
      positivity
    exact_mod_cast cast
  · have cast : ((i.inPowers e).low : ℚ) + (i.inPowers e).den ≤ (i.inPowers e).value := by
      rw [low, den, value]
      nlinarith
    exact_mod_cast cast
  · have cast : ((i.inPowers e).value : ℚ) < (i.inPowers e).high := by
      rw [value, high]
      exact mul_lt_mul_of_pos_right order some
    exact_mod_cast cast

/-- A grid that is no wider than the lower part of the interval has a point in it, and not zero. -/
theorem exists_pick? {grid : Interval} (tie : DecimalTie) (pos : 0 < grid.den)
    (fine : grid.low + grid.den ≤ grid.value) (above : grid.value < grid.high) :
    ∃ n, grid.pick? tie = some n ∧ n ≠ 0 := by
  have parts : grid.value / grid.den * grid.den + grid.value % grid.den = grid.value :=
    Nat.div_add_mod' _ _
  have rest : grid.value % grid.den < grid.den := Nat.mod_lt _ pos
  have inside : grid.low < grid.value / grid.den * grid.den ∧
      grid.value / grid.den * grid.den < grid.high := by omega
  have some : 0 < grid.value / grid.den := Nat.div_pos (by omega) pos
  have down : grid.holds (grid.value / grid.den) = true := by
    unfold holds
    split
    · simp only [Bool.and_eq_true, decide_eq_true_eq]
      omega
    · simpa only [Bool.and_eq_true, decide_eq_true_eq] using inside
  simp only [pick?, down]
  cases grid.holds (grid.value / grid.den + 1) with
  | false => exact ⟨_, rfl, some.ne'⟩
  | true =>
    dsimp only
    split
    · exact ⟨_, rfl, some.ne'⟩
    · split
      · exact ⟨_, rfl, Nat.succ_ne_zero _⟩
      · cases tie with
        | up => exact ⟨_, rfl, Nat.succ_ne_zero _⟩
        | even => exact ⟨_, rfl, (Nat.add_pos_left some _).ne'⟩

end Interval

/-! ## The first grid with a point -/

/-- Where one of the grids to be tried is fine enough, a decimal is found in the interval. -/
theorem shortestFrom_spec (i : Interval) (tie : DecimalTie) {tries k : ℕ} {e : ℤ} (lt : k < tries)
    (pos : 0 < (i.inPowers (e - k)).den)
    (fine : (i.inPowers (e - k)).low + (i.inPowers (e - k)).den ≤ (i.inPowers (e - k)).value)
    (above : (i.inPowers (e - k)).value < (i.inPowers (e - k)).high) :
    ∃ (n : ℕ) (e' : ℤ), n ≠ 0 ∧ i.Contains (n * 10 ^ e') ∧
      shortestFrom i tie tries e = .ofNat n e' := by
  induction tries generalizing k e with
  | zero => omega
  | succ tries ih =>
    -- a grid that is fine enough is tried now, or later
    have later (some : k ≠ 0) : ∃ (n : ℕ) (e' : ℤ), n ≠ 0 ∧ i.Contains (n * 10 ^ e') ∧
        shortestFrom i tie tries (e - 1) = .ofNat n e' := by
      have grid : e - k = e - 1 - ((k - 1 : ℕ) : ℤ) := by omega
      rw [grid] at pos fine above
      exact ih (by omega) pos fine above
    have now (none : k = 0) : ∃ n, (i.inPowers e).pick? tie = some n ∧ n ≠ 0 := by
      subst none
      rw [Int.natCast_zero, Int.sub_zero] at pos fine above
      exact Interval.exists_pick? tie pos fine above
    rw [shortestFrom]
    cases found : (i.inPowers e).pick? tie with
    | none =>
      dsimp only
      refine later fun none => ?_
      obtain ⟨n, other, -⟩ := now none
      rw [found] at other
      cases other
    | some n =>
      dsimp only
      by_cases zero : n = 0
      · rw [if_pos zero]
        refine later fun none => ?_
        obtain ⟨m, other, some⟩ := now none
        rw [found] at other
        exact some (Option.some.inj other ▸ zero)
      · rw [if_neg zero]
        exact ⟨n, e, zero, Interval.contains_of_pick? found, rfl⟩

/-! ## Where the grids begin -/

/-- The first grid is at most a hundred times as wide as the number is great. -/
theorem powerAbove_mul_le {num den : ℕ} (some : 0 < num) (pos : 0 < den) :
    (10 : ℚ) ^ powerAbove num den * den ≤ 100 * num := by
  unfold powerAbove
  split
  · next large =>
    have digits := pow_length_natDigits_le (Nat.div_pos large pos)
    have whole := Nat.div_mul_le_self num den
    have bound : 10 ^ (natDigits (num / den)).length * den ≤ 100 * num := by nlinarith
    rw [zpow_natCast]
    exact_mod_cast bound
  · have digits := lt_pow_length_natDigits (den / num)
    have bound := (Nat.div_lt_iff_lt_mul some).1 digits
    generalize (natDigits (den / num)).length = length at bound ⊢
    have exponent : 1 - (length : ℤ) + 1 = 2 - length := by ring
    have cast : (den : ℚ) < 10 ^ length * num := by exact_mod_cast bound
    rw [exponent, zpow_sub₀ (by norm_num), zpow_natCast, div_mul_eq_mul_div,
      div_le_iff₀ (by positivity)]
    norm_num
    linarith

/-! ## Formats of few digits -/

/-- A format whose significands have few enough digits for the number of grids that are tried. -/
def Format.FewDigits (f : Format) : Prop := 100 * 2 ^ (f.precision + 2) ≤ 10 ^ (19 : ℕ)

theorem Format.fewDigits_single : Format.single.FewDigits := by
  unfold FewDigits
  decide

theorem Format.fewDigits_double : Format.double.FewDigits := by
  unfold FewDigits
  decide

variable {f : Format}

/-- The interval reaches below its number by a part that the precision bounds. -/
theorem Interval.value_lt (f : Format) (units : ℕ) :
    2 * units < 2 ^ (f.precision + 2) * below f units := by
  have bound := f.lt_two_pow units
  unfold below
  split
  · next first =>
    have power : 2 ^ (f.precision + 2) * 2 ^ (f.spacing units - 1) =
        2 * 2 ^ (f.precision + f.spacing units) := by
      rw [← Nat.pow_add, ← Nat.pow_succ']
      congr 1
      omega
    omega
  · have power : 2 ^ (f.precision + 2) * 2 ^ f.spacing units =
        4 * 2 ^ (f.precision + f.spacing units) := by
      rw [Nat.pow_add, Nat.pow_add]
      ring
    omega

theorem Interval.below_le_value (f : Format) {units : ℕ} (pos : 0 < units) :
    below f units ≤ 2 * units := by
  have near := below_le f units
  by_cases wide : f.spacing units = 0
  · rw [wide] at near
    omega
  · have start := (f.spacing_spec units).2 wide
    rw [Nat.pow_add] at start
    have large := Nat.one_le_two_pow (n := f.precision - 1)
    nlinarith

/-- The last of twenty grids is fine enough. -/
theorem Interval.fine_ofUnits (few : f.FewDigits) {units : ℕ} (pos : 0 < units) :
    (10 : ℚ) ^ (powerAbove (2 * units) (2 * 2 ^ f.unit) - (19 : ℕ)) * (2 * 2 ^ f.unit : ℕ) ≤
      below f units := by
  have some : 0 < 2 * units := Nat.mul_pos two_pos pos
  have unit : 0 < 2 * 2 ^ f.unit := Nat.mul_pos two_pos (Nat.two_pow_pos _)
  have start := powerAbove_mul_le some unit
  have reach : 100 * (2 * units) ≤ 10 ^ 19 * below f units := by
    have value := value_lt f units
    unfold Format.FewDigits at few
    nlinarith
  have cast : (100 : ℚ) * (2 * units : ℕ) ≤ 10 ^ 19 * below f units := by exact_mod_cast reach
  rw [zpow_sub₀ (by norm_num), zpow_natCast, div_mul_eq_mul_div, div_le_iff₀ (by positivity)]
  linarith

/-- **The shortest decimal** of a positive number of units is found, and lies in the interval of the
reals that round to this number. -/
theorem shortest_spec (few : f.FewDigits) (tie : DecimalTie) {units : ℕ} (pos : 0 < units) :
    ∃ (n : ℕ) (e : ℤ), n ≠ 0 ∧ (Interval.ofUnits f units).Contains (n * 10 ^ e) ∧
      shortest f tie units = .ofNat n e := by
  have some : 0 < 2 * 2 ^ f.unit := Nat.mul_pos two_pos (Nat.two_pow_pos _)
  have low : ((Interval.ofUnits f units).low : ℚ) = (2 * units : ℕ) - Interval.below f units :=
    Nat.cast_sub (Interval.below_le_value f pos)
  have fine : (10 : ℚ) ^ (powerAbove (2 * units) (2 * 2 ^ f.unit) - (19 : ℕ)) *
      (Interval.ofUnits f units).den ≤
        (Interval.ofUnits f units).value - (Interval.ofUnits f units).low := by
    rw [low]
    refine (Interval.fine_ofUnits few pos).trans_eq ?_
    exact (sub_sub_cancel _ _).symm
  have above : (Interval.ofUnits f units).value < (Interval.ofUnits f units).high :=
    Nat.lt_add_of_pos_right (Nat.two_pow_pos _)
  obtain ⟨grid, step, order⟩ := Interval.fine_inPowers some fine above
  exact shortestFrom_spec _ tie (by decide) grid step order

/-- The intervals of different numbers have no point in common. -/
theorem Interval.Contains.units_eq {m n : ℕ} {x : ℚ} (hm : f.Representable m)
    (hn : f.Representable n) (left : (ofUnits f m).Contains x) (right : (ofUnits f n).Contains x) :
    m = n := by
  have apart {a b : ℕ} (ha : f.Representable a) (hb : f.Representable b)
      (inA : (ofUnits f a).Contains x) (inB : (ofUnits f b).Contains x) : b ≤ a := by
    refine Nat.le_of_not_lt fun lt => ?_
    obtain ⟨le, ends⟩ := high_le_low ha hb lt
    have order : ((ofUnits f a).high : ℚ) ≤ (ofUnits f b).low := by exact_mod_cast le
    have stop : x * (ofUnits f a).den ≤ (ofUnits f a).high := inA.le_high
    have start : ((ofUnits f b).low : ℚ) ≤ x * (ofUnits f a).den := inB.low_le
    have meet : (ofUnits f a).high = (ofUnits f b).low := by
      exact_mod_cast order.antisymm (start.trans stop)
    rcases ends meet with one | one
    · exact absurd (inA.inside one).2 (not_lt.2 (order.trans start))
    · exact absurd (inB.inside one).1 (not_lt.2 (stop.trans order))
  exact Nat.le_antisymm (apart hn hm right left) (apart hm hn left right)

end RecordQuery
