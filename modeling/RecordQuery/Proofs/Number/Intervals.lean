import RecordQuery.Number.Binary.Shortest
import RecordQuery.Proofs.Number.Exact

/-!
# The reals that round to a binary number

Every positive number of units has an interval of reals that round to it. The intervals of different
numbers have no point in common: they meet at most at an end, and there only one of the two holds
its end.

* `Format.spacing_spec`: where the spacing of numbers changes;
* `Format.Representable.units_eq`: a number is a significand at its spacing;
* `Interval.high_le_low`: the interval of a smaller number ends before that of a greater one begins.
-/

namespace RecordQuery

namespace Format

variable {f : Format} {units other : Nat}

/-- The spacing is one unit among the numbers below a power of two. Above them it doubles at every
power of two. -/
theorem spacing_spec (f : Format) (units : Nat) :
    units < 2 ^ (f.precision + f.spacing units) ∧
      (f.spacing units ≠ 0 → 2 ^ (f.precision - 1 + f.spacing units) ≤ units) := by
  have precision := f.precision_pos
  unfold spacing
  split
  · next small => exact ⟨small, fun h => absurd rfl h⟩
  · next large =>
    have pos : units ≠ 0 := by
      rintro rfl
      exact large (Nat.two_pow_pos _)
    have log : f.precision ≤ units.log2 := (Nat.le_log2 pos).2 (Nat.le_of_not_lt large)
    have above : f.precision + (units.log2 + 1 - f.precision) = units.log2 + 1 := by omega
    have below : f.precision - 1 + (units.log2 + 1 - f.precision) = units.log2 := by omega
    rw [above, below]
    exact ⟨Nat.lt_log2_self, fun _ => Nat.log2_self_le pos⟩

theorem lt_two_pow (f : Format) (units : Nat) : units < 2 ^ (f.precision + f.spacing units) :=
  (f.spacing_spec units).1

/-- A greater number has no smaller spacing. -/
theorem spacing_mono (h : units ≤ other) : f.spacing units ≤ f.spacing other := by
  refine Nat.le_of_not_lt fun less => ?_
  have some : f.spacing units ≠ 0 := by omega
  have upper := f.lt_two_pow other
  have lower := (f.spacing_spec units).2 some
  have exponent : f.precision + f.spacing other ≤ f.precision - 1 + f.spacing units := by
    have := f.precision_pos
    omega
  have powers := Nat.pow_le_pow_right (by decide : 0 < 2) exponent
  omega

/-- A number that the format holds is a significand at its spacing. -/
theorem Representable.units_eq (h : f.Representable units) :
    units / 2 ^ f.spacing units < 2 ^ f.precision ∧
      units / 2 ^ f.spacing units * 2 ^ f.spacing units = units := by
  obtain ⟨significand, shift, lt, rfl⟩ := h.exact
  have dvd : 2 ^ f.spacing (significand * 2 ^ shift) ∣ significand * 2 ^ shift :=
    Nat.dvd_mul_left_of_dvd (Nat.pow_dvd_pow 2 (spacing_le lt)) significand
  exact ⟨f.lt_two_pow_spacing _, Nat.div_mul_cancel dvd⟩

end Format

/-! ## Neighbouring intervals -/

namespace Interval

variable {f : Format} {m n : Nat}

/-- The distance from the start of the interval to the number, doubled. -/
def below (f : Format) (units : Nat) : Nat :=
  if f.spacing units ≠ 0 ∧ units = 2 ^ (f.precision - 1 + f.spacing units) then
    2 ^ (f.spacing units - 1)
  else 2 ^ f.spacing units

theorem low_ofUnits (f : Format) (units : Nat) :
    (ofUnits f units).low = 2 * units - below f units := rfl

theorem high_ofUnits (f : Format) (units : Nat) :
    (ofUnits f units).high = 2 * units + 2 ^ f.spacing units := rfl

theorem closed_ofUnits (f : Format) (units : Nat) :
    (ofUnits f units).closed = (units / 2 ^ f.spacing units % 2 == 0) := rfl

theorem below_le (f : Format) (units : Nat) : below f units ≤ 2 ^ f.spacing units := by
  unfold below
  split
  · exact Nat.pow_le_pow_right (by decide) (Nat.sub_le _ _)
  · exact Nat.le_refl _

/-- Significands `a` and `b` with their steps, the greater one no finer: what lies below `b` is no
wider than its step, so the intervals meet only if the significands follow each other. -/
theorem meet_of_lt {a b fine step near : Nat} (pos : 0 < step) (lt : a < b) (finer : fine ≤ step)
    (le : near ≤ step) :
    2 * (a * fine) + fine ≤ 2 * (b * step) - near ∧
      (2 * (a * fine) + fine = 2 * (b * step) - near → b = a + 1) := by
  obtain ⟨k, rfl⟩ := Nat.exists_eq_add_of_lt lt
  have cut : (a + k + 1) * step = a * step + k * step + step := by
    rw [Nat.add_mul, Nat.add_mul, Nat.one_mul]
  have wide : a * fine ≤ a * step := Nat.mul_le_mul_left a finer
  rw [cut]
  refine ⟨by omega, fun meet => ?_⟩
  have none : k * step = 0 := by omega
  rcases Nat.mul_eq_zero.1 none with rfl | zero
  · rfl
  · omega

/-- The interval of a number at or above the power of two where its spacing starts. -/
theorem le_low (f : Format) {units : Nat} (wide : f.spacing units ≠ 0)
    (h : f.Representable units) :
    2 * (2 ^ f.precision * 2 ^ (f.spacing units - 1)) - 2 ^ (f.spacing units - 1) ≤
      (ofUnits f units).low := by
  obtain ⟨-, exact⟩ := h.units_eq
  have start := (f.spacing_spec units).2 wide
  have precision := f.precision_pos
  have power : 2 ^ (f.precision - 1 + f.spacing units) =
      2 ^ f.precision * 2 ^ (f.spacing units - 1) := by
    rw [← Nat.pow_add]
    congr 1
    omega
  have double : 2 ^ f.spacing units = 2 * 2 ^ (f.spacing units - 1) := by
    rw [← Nat.pow_succ']
    congr 1
    omega
  rw [low_ofUnits]
  by_cases first : units = 2 ^ (f.precision - 1 + f.spacing units)
  · have near : below f units = 2 ^ (f.spacing units - 1) := if_pos ⟨wide, first⟩
    rw [near]
    omega
  · have near : below f units = 2 ^ f.spacing units := if_neg fun both => first both.2
    have even : 2 ^ f.precision = 2 * 2 ^ (f.precision - 1) := by
      rw [← Nat.pow_succ']
      congr 1
      omega
    have split : 2 ^ f.precision * 2 ^ (f.spacing units - 1) =
        2 ^ (f.precision - 1) * (2 * 2 ^ (f.spacing units - 1)) := by
      rw [even, Nat.mul_assoc, Nat.mul_left_comm]
    rw [near, split]
    rw [power, split] at start first
    rw [double] at exact ⊢
    generalize units / (2 * 2 ^ (f.spacing units - 1)) = significand at *
    generalize 2 ^ (f.spacing units - 1) = step at *
    generalize 2 ^ (f.precision - 1) = half at *
    have above : half * (2 * step) < significand * (2 * step) := by omega
    have next : (half + 1) * (2 * step) ≤ significand * (2 * step) :=
      Nat.mul_le_mul_right _ (Nat.lt_of_mul_lt_mul_right above)
    rw [Nat.add_mul, Nat.one_mul] at next
    omega

/-- The interval of a smaller number ends before that of a greater one begins, or where it begins;
then one of the two does not hold this end. -/
theorem high_le_low (hm : f.Representable m) (hn : f.Representable n) (lt : m < n) :
    (ofUnits f m).high ≤ (ofUnits f n).low ∧
      ((ofUnits f m).high = (ofUnits f n).low →
        (ofUnits f m).closed = false ∨ (ofUnits f n).closed = false) := by
  obtain ⟨bound, units⟩ := hm.units_eq
  obtain ⟨bound', units'⟩ := hn.units_eq
  have precision := f.precision_pos
  have odd {a : Nat} (parity : a % 2 = 1) : (a % 2 == 0) = false := by
    rw [parity]
    rfl
  rw [closed_ofUnits, closed_ofUnits]
  rcases Nat.lt_or_eq_of_le (f.spacing_mono (Nat.le_of_lt lt)) with less | same
  · have wide : f.spacing n ≠ 0 := by omega
    have start := le_low f wide hn
    have steps : 2 ^ f.spacing m ≤ 2 ^ (f.spacing n - 1) :=
      Nat.pow_le_pow_right (by decide) (by omega)
    obtain ⟨le, last⟩ := meet_of_lt (Nat.two_pow_pos _) bound steps (Nat.le_refl _)
    rw [units] at le last
    rw [high_ofUnits]
    refine ⟨Nat.le_trans le start, fun meet => .inl (odd ?_)⟩
    have top : 2 ^ f.precision = m / 2 ^ f.spacing m + 1 := last (by omega)
    have even : 2 ^ f.precision = 2 * 2 ^ (f.precision - 1) := by
      rw [← Nat.pow_succ']
      congr 1
      omega
    omega
  · have near := below_le f n
    rw [high_ofUnits, low_ofUnits]
    rw [← same] at units' near ⊢
    have order : m / 2 ^ f.spacing m < n / 2 ^ f.spacing m := by
      refine Nat.lt_of_mul_lt_mul_right (a := 2 ^ f.spacing m) ?_
      rw [units, units']
      exact lt
    obtain ⟨le, next⟩ := meet_of_lt (Nat.two_pow_pos _) order (Nat.le_refl _) near
    rw [units, units'] at le next
    refine ⟨le, fun meet => ?_⟩
    have follows := next meet
    rcases Nat.mod_two_eq_zero_or_one (m / 2 ^ f.spacing m) with parity | parity
    · exact .inr (odd (by omega))
    · exact .inl (odd parity)

end Interval

end RecordQuery
