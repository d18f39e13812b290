import RecordQuery.Number.Decimal.Reader
import RecordQuery.Proofs.Number.Texts

/-!
# Numbers read back from their texts

Every real of the interval of a binary number rounds to this number. The text of a binary number is
a decimal of its interval, so it reads as the number, with its sign. The digits of a decimal are
read one by one into what they were written for, and no rule about too many digits applies.

* `halfEven_of_near`: the integer nearest a quotient;
* `Format.spacing_eq`: the spacing of a number between two powers of two;
* `Format.round_of_inside`: what lies in the interval of a number rounds to it;
* `Binary.read?_display`: the texts of binary numbers;
* `Decimal.readDigits?_placesDigits` and `Decimal.read?_display_eq`: the texts of decimals.
-/

namespace RecordQuery

open Text

/-! ## Rounding into an interval -/

/-- A quotient rounds to an integer that is not farther than a half, and nearer if it is odd. -/
theorem halfEven_of_near {num den k : ℕ} (pos : 0 < den) (low : 2 * (k * den) ≤ 2 * num + den)
    (high : 2 * num ≤ 2 * (k * den) + den)
    (odd : k % 2 = 1 → 2 * (k * den) < 2 * num + den ∧ 2 * num < 2 * (k * den) + den) :
    halfEven num den = k := by
  have parts : num / den * den + num % den = num := Nat.div_add_mod' num den
  have rest : num % den < den := Nat.mod_lt _ pos
  unfold halfEven
  dsimp only
  generalize num / den = q at *
  generalize num % den = r at *
  have near : k = q ∨ k = q + 1 := by
    have upper : k < q + 2 := by
      refine Nat.lt_of_not_le fun le => ?_
      have far := Nat.mul_le_mul_right den le
      rw [Nat.add_mul] at far
      omega
    have lower : q ≤ k := by
      refine Nat.le_of_not_lt fun lt => ?_
      have far := Nat.mul_le_mul_right den (Nat.succ_le_of_lt lt)
      rw [Nat.succ_mul] at far
      omega
    omega
  rcases near with rfl | rfl
  · rw [← parts] at high odd
    split
    · rfl
    · rw [if_neg (by omega)]
      omega
  · rw [← parts, Nat.add_mul, Nat.one_mul] at low odd
    rw [if_neg (by omega)]
    split
    · rfl
    · omega

namespace Format

variable {f : Format} {units num den : ℕ}

/-- The spacing of a number that lies below a power of two and, unless it is one unit, above the one
before. -/
theorem spacing_eq {n s : ℕ} (lt : n < 2 ^ (f.precision + s))
    (le : s ≠ 0 → 2 ^ (f.precision - 1 + s) ≤ n) : f.spacing n = s := by
  obtain ⟨upper, lower⟩ := f.spacing_spec n
  have precision := f.precision_pos
  refine Nat.le_antisymm (Nat.le_of_not_lt fun less => ?_) (Nat.le_of_not_lt fun less => ?_)
  · have power := Nat.lt_of_le_of_lt (lower (by omega)) lt
    have exponent := (Nat.pow_lt_pow_iff_right (by decide)).1 power
    omega
  · have power := Nat.lt_of_le_of_lt (le (by omega)) upper
    have exponent := (Nat.pow_lt_pow_iff_right (by decide)).1 power
    omega

/-- A point of the interval rounds to the number if the spacing is the same there. -/
theorem round_of_spacing (pos : 0 < den) (h : f.Representable units)
    (low : (Interval.ofUnits f units).low * den ≤ 2 * num)
    (high : 2 * num ≤ (Interval.ofUnits f units).high * den)
    (inside : (Interval.ofUnits f units).closed = false →
      (Interval.ofUnits f units).low * den < 2 * num ∧
        2 * num < (Interval.ofUnits f units).high * den)
    (same : f.spacing (num / den) = f.spacing units) : f.round num den = units := by
  obtain ⟨-, exact⟩ := h.units_eq
  have whole : units / 2 ^ f.spacing units * (den * 2 ^ f.spacing units) = units * den := by
    rw [Nat.mul_left_comm, exact, Nat.mul_comm]
  have start : (Interval.ofUnits f units).low * den =
      2 * (units * den) - Interval.below f units * den := by
    rw [Interval.low_ofUnits, Nat.sub_mul, Nat.mul_assoc]
  have stop : (Interval.ofUnits f units).high * den =
      2 * (units * den) + den * 2 ^ f.spacing units := by
    rw [Interval.high_ofUnits, Nat.add_mul, Nat.mul_assoc, Nat.mul_comm den]
  have near : Interval.below f units * den ≤ den * 2 ^ f.spacing units := by
    rw [Nat.mul_comm den]
    exact Nat.mul_le_mul_right den (Interval.below_le f units)
  have odd (parity : units / 2 ^ f.spacing units % 2 = 1) :
      (Interval.ofUnits f units).closed = false := by
    rw [Interval.closed_ofUnits, parity]
    rfl
  rw [start] at low inside
  rw [stop] at high inside
  rw [round, same, halfEven_of_near (k := units / 2 ^ f.spacing units)
    (Nat.mul_pos pos (Nat.two_pow_pos _)), exact]
  · rw [whole]
    omega
  · rw [whole]
    exact high
  · intro parity
    obtain ⟨above, beneath⟩ := inside (odd parity)
    rw [whole]
    exact ⟨by omega, beneath⟩

/-- The power of two where a spacing begins, by the spacing before it. -/
theorem change_eq (wide : f.spacing units ≠ 0) :
    2 ^ (f.precision - 1 + f.spacing units) = 2 ^ f.precision * 2 ^ (f.spacing units - 1) ∧
      2 ^ f.precision = 2 * 2 ^ (f.precision - 1) ∧
      2 ^ f.spacing units = 2 * 2 ^ (f.spacing units - 1) := by
  have precision := f.precision_pos
  refine ⟨?_, ?_, ?_⟩
  · rw [← Nat.pow_add]
    congr 1
    omega
  · rw [← Nat.pow_succ']
    congr 1
    omega
  · rw [← Nat.pow_succ']
    congr 1
    omega

/-- Only the interval of the number where a spacing begins reaches below this number. -/
theorem units_eq_change (h : f.Representable units) (wide : f.spacing units ≠ 0)
    (low : (Interval.ofUnits f units).low * den ≤ 2 * num)
    (lt : num < 2 ^ f.precision * 2 ^ (f.spacing units - 1) * den) :
    units = 2 ^ f.precision * 2 ^ (f.spacing units - 1) := by
  obtain ⟨-, exact⟩ := h.units_eq
  obtain ⟨change, even, double⟩ := change_eq wide
  have reached := (f.spacing_spec units).2 wide
  rw [change] at reached
  by_contra other
  -- the next number begins its interval past the point
  have near : Interval.below f units = 2 ^ f.spacing units :=
    if_neg fun both => other (both.2.trans change)
  have more : 2 ^ (f.precision - 1) + 1 ≤ units / 2 ^ f.spacing units := by
    refine Nat.lt_of_mul_lt_mul_right (a := 2 ^ f.spacing units) ?_
    rw [exact, double, Nat.mul_left_comm, ← Nat.mul_assoc, ← even]
    omega
  have next := Nat.mul_le_mul_right (2 ^ f.spacing units) more
  rw [exact, Nat.add_mul, Nat.one_mul, double, Nat.mul_left_comm, ← Nat.mul_assoc, ← even] at next
  rw [Interval.low_ofUnits, near, double] at low
  have far : 2 * (2 ^ f.precision * 2 ^ (f.spacing units - 1)) * den ≤
      (2 * units - 2 * 2 ^ (f.spacing units - 1)) * den :=
    Nat.mul_le_mul_right den (by omega)
  rw [Nat.mul_assoc 2] at far
  omega

/-- A point of the interval that lies below a change of the spacing rounds to the number where it
changes. -/
theorem round_below (pos : 0 < den) (h : f.Representable units) (wide : f.spacing units ≠ 0)
    (low : (Interval.ofUnits f units).low * den ≤ 2 * num)
    (lt : num < 2 ^ (f.precision - 1 + f.spacing units) * den) : f.round num den = units := by
  obtain ⟨change, even, -⟩ := change_eq wide
  have precision := f.precision_pos
  rw [change] at lt
  have first := units_eq_change h wide low lt
  have start :
      (2 * (2 ^ f.precision * 2 ^ (f.spacing units - 1)) - 2 ^ (f.spacing units - 1)) * den ≤
        2 * num := Nat.le_trans (Nat.mul_le_mul_right den (Interval.le_low f wide h)) low
  rw [Nat.sub_mul, Nat.mul_assoc 2] at start
  have finer : f.spacing (num / den) = f.spacing units - 1 := by
    refine spacing_eq ?_ fun _ => ?_
    · rw [Nat.pow_add]
      exact (Nat.div_lt_iff_lt_mul pos).2 lt
    · have some : 1 ≤ 2 ^ (f.precision - 1) := Nat.two_pow_pos _
      have half := Nat.mul_le_mul_right (2 ^ (f.spacing units - 1) * den) some
      have twice : 2 ^ f.precision * 2 ^ (f.spacing units - 1) * den =
          2 * (2 ^ (f.precision - 1) * (2 ^ (f.spacing units - 1) * den)) := by
        rw [even, Nat.mul_assoc, Nat.mul_assoc]
      rw [Nat.pow_add, Nat.le_div_iff_mul_le pos, Nat.mul_assoc]
      omega
  have whole : 2 ^ f.precision * (den * 2 ^ (f.spacing units - 1)) =
      2 ^ f.precision * 2 ^ (f.spacing units - 1) * den := by
    rw [Nat.mul_comm den, Nat.mul_assoc]
  have step : 0 < den * 2 ^ (f.spacing units - 1) := Nat.mul_pos pos (Nat.two_pow_pos _)
  rw [round, finer, halfEven_of_near (k := 2 ^ f.precision) step, ← first]
  · rw [whole, Nat.mul_comm den]
    omega
  · rw [whole, Nat.mul_comm den]
    omega
  · omega

/-- **What lies in the interval of a number** rounds to it. -/
theorem round_of_inside (pos : 0 < den) (h : f.Representable units)
    (low : (Interval.ofUnits f units).low * den ≤ 2 * num)
    (high : 2 * num ≤ (Interval.ofUnits f units).high * den)
    (inside : (Interval.ofUnits f units).closed = false →
      (Interval.ofUnits f units).low * den < 2 * num ∧
        2 * num < (Interval.ofUnits f units).high * den) : f.round num den = units := by
  obtain ⟨bound, exact⟩ := h.units_eq
  by_cases first : f.spacing units ≠ 0 ∧ num / den < 2 ^ (f.precision - 1 + f.spacing units)
  · exact round_below pos h first.1 low ((Nat.div_lt_iff_lt_mul pos).1 first.2)
  · refine round_of_spacing pos h low high inside (spacing_eq ?_ fun wide => ?_)
    · have top : (units / 2 ^ f.spacing units + 1) * 2 ^ f.spacing units ≤
          2 ^ (f.precision + f.spacing units) := by
        rw [Nat.pow_add]
        exact Nat.mul_le_mul_right _ bound
      have step : 0 < 2 ^ f.spacing units := Nat.two_pow_pos _
      rw [Nat.add_mul, exact, Nat.one_mul] at top
      rw [Interval.high_ofUnits] at high
      have less : (2 * units + 2 ^ f.spacing units) * den <
          2 * 2 ^ (f.precision + f.spacing units) * den :=
        Nat.mul_lt_mul_of_pos_right (by omega) pos
      rw [Nat.mul_assoc 2] at less
      exact (Nat.div_lt_iff_lt_mul pos).2 (by omega)
    · exact Nat.le_of_not_lt fun lt => first ⟨wide, lt⟩

end Format

/-! ## Binary numbers -/

/-- The interval of a number lies above one unit and below three halves of the number. -/
theorem Interval.ofUnits_bounds {f : Format} {units : ℕ} (h : f.Representable units)
    (some : 0 < units) : 1 ≤ (ofUnits f units).low ∧ (ofUnits f units).high ≤ 3 * units := by
  obtain ⟨-, exact⟩ := h.units_eq
  have step : 2 ^ f.spacing units ≤ units := by
    refine Nat.le_of_dvd some ⟨units / 2 ^ f.spacing units, ?_⟩
    rw [Nat.mul_comm, exact]
  have below := below_le f units
  rw [low_ofUnits, high_ofUnits]
  omega

/-- The numbers of a format lie between the powers of ten past which decimals are not computed. -/
structure Format.InReach (f : Format) : Prop where
  upper : 2 * 2 ^ f.bound ≤ 10 ^ 400 * 2 ^ f.unit
  lower : 2 * 2 ^ f.unit ≤ 10 ^ 400

theorem Format.inReach_single : Format.single.InReach := ⟨by decide +kernel, by decide +kernel⟩

theorem Format.inReach_double : Format.double.InReach := ⟨by decide +kernel, by decide +kernel⟩

/-- What lies in the interval of a number lies between these powers of ten. -/
theorem Interval.Contains.in_reach {f : Format} {units : ℕ} {x : ℚ} (reach : f.InReach)
    (h : f.Representable units) (some : 0 < units) (inside : (ofUnits f units).Contains x) :
    1 ≤ x * 10 ^ (400 : ℤ) ∧ x < 10 ^ (400 : ℤ) := by
  obtain ⟨low, high⟩ := ofUnits_bounds h some
  have start : (1 : ℚ) ≤ (ofUnits f units).low := by exact_mod_cast low
  have stop : ((ofUnits f units).high : ℚ) < 3 * (2 ^ f.bound : ℕ) := by
    have lt := h.lt_bound
    exact_mod_cast (by omega : (ofUnits f units).high < 3 * 2 ^ f.bound)
  have width : ((ofUnits f units).den : ℚ) = 2 * (2 ^ f.unit : ℕ) := by
    exact_mod_cast (rfl : (ofUnits f units).den = 2 * 2 ^ f.unit)
  have power : ((10 ^ 400 : ℕ) : ℚ) = 10 ^ (400 : ℤ) := by
    rw [Nat.cast_pow, Nat.cast_ofNat]
    exact (zpow_natCast (10 : ℚ) 400).symm
  have upper : 2 * ((2 ^ f.bound : ℕ) : ℚ) ≤ (10 ^ 400 : ℕ) * (2 ^ f.unit : ℕ) := by
    exact_mod_cast reach.upper
  have lower : 2 * ((2 ^ f.unit : ℕ) : ℚ) ≤ (10 ^ 400 : ℕ) := by exact_mod_cast reach.lower
  have room : (0 : ℚ) < (2 ^ f.unit : ℕ) := by positivity
  have first := start.trans inside.low_le
  have last := inside.le_high.trans_lt stop
  rw [width] at first last
  rw [power] at upper lower
  generalize (10 : ℚ) ^ (400 : ℤ) = bound at upper lower
  have above : 0 < x :=
    (mul_pos_iff_of_pos_right (mul_pos two_pos room)).1 (lt_of_lt_of_le one_pos first)
  constructor
  · exact first.trans (mul_le_mul_of_nonneg_left lower above.le)
  · refine lt_of_not_ge fun le => ?_
    have grown := mul_le_mul_of_nonneg_right le room.le
    linarith only [grown, last, upper, mul_pos above room]

namespace Binary

variable {f : Format} {negative : Bool} {units : ℕ}

/-- A quotient in the interval of a number is read as the number. -/
theorem ofRatio_of_contains {num den : ℕ} (pos : 0 < den) (h : f.Representable units)
    (inside : (Interval.ofUnits f units).Contains (num / den)) :
    ofRatio f negative num den = .finite negative units h := by
  have some : (0 : ℚ) < den := by exact_mod_cast pos
  have point : (num / den : ℚ) * (Interval.ofUnits f units).den * den =
      (2 * (num * 2 ^ f.unit) : ℕ) := by
    have width : (Interval.ofUnits f units).den = 2 * 2 ^ f.unit := rfl
    rw [width]
    push_cast
    field_simp
  have rounded : f.round (num * 2 ^ f.unit) den = units := by
    refine Format.round_of_inside pos h ?_ ?_ fun closed => ⟨?_, ?_⟩
    · have le := mul_le_mul_of_nonneg_right inside.low_le some.le
      rw [point] at le
      exact_mod_cast le
    · have le := mul_le_mul_of_nonneg_right inside.le_high some.le
      rw [point] at le
      exact_mod_cast le
    · have lt := mul_lt_mul_of_pos_right (inside.inside closed).1 some
      rw [point] at lt
      exact_mod_cast lt
    · have lt := mul_lt_mul_of_pos_right (inside.inside closed).2 some
      rw [point] at lt
      exact_mod_cast lt
  have bound : f.round (num * 2 ^ f.unit) den < 2 ^ f.bound := by
    rw [rounded]
    exact h.lt_bound
  rw [ofRatio, ofUnitRatio, dif_pos bound]
  simp only [rounded]

/-- A decimal lies between the powers of ten that its digits reach. -/
theorem size_spec {mantissa : ℕ} (pos : 0 < mantissa) (exponent : ℤ) :
    (mantissa * 10 ^ exponent : ℚ) < 10 ^ (exponent + (natDigits mantissa).length) ∧
      (10 : ℚ) ^ (exponent + (natDigits mantissa).length) ≤ 10 * (mantissa * 10 ^ exponent) := by
  have scale : (0 : ℚ) < 10 ^ exponent := by positivity
  have power : (10 : ℚ) ^ (exponent + (natDigits mantissa).length) =
      (10 ^ (natDigits mantissa).length : ℕ) * 10 ^ exponent := by
    rw [zpow_add₀ (by norm_num), zpow_natCast, mul_comm]
    push_cast
    rfl
  have upper : (mantissa : ℚ) < (10 ^ (natDigits mantissa).length : ℕ) := by
    exact_mod_cast lt_pow_length_natDigits mantissa
  have lower : ((10 ^ (natDigits mantissa).length : ℕ) : ℚ) ≤ 10 * mantissa := by
    exact_mod_cast pow_length_natDigits_le pos
  rw [power, ← mul_assoc]
  exact ⟨mul_lt_mul_of_pos_right upper scale, mul_le_mul_of_nonneg_right lower scale.le⟩

/-- A decimal in the interval of a number is neither too large nor too small to be computed. -/
theorem size_of_contains (reach : f.InReach) (h : f.Representable units) (some : 0 < units)
    {mantissa : ℕ} {exponent : ℤ} (pos : 0 < mantissa)
    (inside : (Interval.ofUnits f units).Contains (mantissa * 10 ^ exponent)) :
    -400 ≤ exponent + (natDigits mantissa).length ∧
      exponent + (natDigits mantissa).length ≤ 400 := by
  obtain ⟨below, above⟩ := size_spec pos exponent
  obtain ⟨large, small⟩ := inside.in_reach reach h some
  constructor
  · refine le_of_not_gt fun tiny => ?_
    have less : (10 : ℚ) ^ (exponent + (natDigits mantissa).length) < 10 ^ (-400 : ℤ) :=
      zpow_lt_zpow_right₀ (by norm_num) tiny
    rw [zpow_neg] at less
    have reached : (0 : ℚ) < 10 ^ (400 : ℤ) := by positivity
    have under : (mantissa * 10 ^ exponent : ℚ) * 10 ^ (400 : ℤ) < 1 :=
      (mul_lt_mul_of_pos_right (below.trans less) reached).trans_eq (inv_mul_cancel₀ reached.ne')
    exact absurd large (not_le.2 under)
  · refine le_of_not_gt fun huge => ?_
    have more : (10 : ℚ) ^ (401 : ℤ) ≤ 10 ^ (exponent + (natDigits mantissa).length) :=
      zpow_le_zpow_right₀ (by norm_num) huge
    have next : (10 : ℚ) ^ (401 : ℤ) = 10 ^ (400 : ℤ) * 10 := zpow_add_one₀ (by norm_num) 400
    rw [next] at more
    linarith only [more, above, small]

/-- **A decimal in the interval of a number** is read as the number. -/
theorem ofDecimal_of_contains (reach : f.InReach) (h : f.Representable units) (some : 0 < units)
    {mantissa : ℕ} {exponent : ℤ} (pos : 0 < mantissa)
    (inside : (Interval.ofUnits f units).Contains (mantissa * 10 ^ exponent)) :
    ofDecimal f negative mantissa exponent = .finite negative units h := by
  obtain ⟨large, small⟩ := size_of_contains reach h some pos inside
  unfold ofDecimal
  dsimp only
  rw [if_neg (by omega), if_neg (by omega)]
  cases exponent with
  | ofNat e =>
    refine ofRatio_of_contains one_pos h ?_
    have value : (((mantissa * 10 ^ e : ℕ) : ℚ) / (1 : ℕ)) = mantissa * 10 ^ (Int.ofNat e) := by
      rw [Int.ofNat_eq_natCast, zpow_natCast]
      push_cast
      exact div_one _
    rwa [value]
  | negSucc e =>
    refine ofRatio_of_contains (by positivity) h ?_
    have value : ((mantissa : ℚ) / (10 ^ (e + 1) : ℕ)) = mantissa * 10 ^ (Int.negSucc e) := by
      rw [zpow_negSucc, div_eq_mul_inv]
      push_cast
      rfl
    rwa [value]

theorem asciiLowerChar_of_isDigit {c : Char} (h : isDigit c = true) : asciiLowerChar c = c := by
  obtain ⟨lower, upper⟩ := toNat_of_isDigit h
  have before : ¬ 'A' ≤ c := by
    intro le
    have : 0x41 ≤ c.toNat := le
    omega
  rw [asciiLowerChar, if_neg (by simp [before])]

/-- Digits with a point are no name of a number. -/
theorem map_asciiLowerChar_of_digits {cs : List Char}
    (digits : ∀ c ∈ cs, isDigit c = true ∨ c = '.') : cs.map asciiLowerChar = cs := by
  refine (List.map_congr_left fun c mem => ?_).trans (List.map_id cs)
  rcases digits c mem with digit | rfl
  · exact asciiLowerChar_of_isDigit digit
  · rfl

theorem lowerName_ne_of_digits {cs name : List Char} {c : Char}
    (digits : ∀ c ∈ cs, isDigit c = true ∨ c = '.') (mem : c ∈ name) (other : isDigit c = false)
    (point : c ≠ '.') : String.ofList (cs.map asciiLowerChar) ≠ String.ofList name := by
  rw [map_asciiLowerChar_of_digits digits]
  intro same
  rw [String.ofList_injective same] at digits
  exact notMem_of_digits_point digits other point mem

theorem not_named_of_digits {cs : List Char} (digits : ∀ c ∈ cs, isDigit c = true ∨ c = '.') :
    String.ofList (cs.map asciiLowerChar) ≠ "nan" ∧
      ¬ (String.ofList (cs.map asciiLowerChar) = "inf" ∨
        String.ofList (cs.map asciiLowerChar) = "infinity") := by
  have noNan : String.ofList (cs.map asciiLowerChar) ≠ "nan" :=
    lowerName_ne_of_digits digits (show 'n' ∈ "nan".toList by decide) rfl (by decide)
  have noInf : String.ofList (cs.map asciiLowerChar) ≠ "inf" :=
    lowerName_ne_of_digits digits (show 'n' ∈ "inf".toList by decide) rfl (by decide)
  have noInfinity : String.ofList (cs.map asciiLowerChar) ≠ "infinity" :=
    lowerName_ne_of_digits digits (show 'n' ∈ "infinity".toList by decide) rfl (by decide)
  exact ⟨noNan, not_or.2 ⟨noInf, noInfinity⟩⟩

theorem digitsAt_of_digits {cs : List Char} (digits : ∀ c ∈ cs, isDigit c = true) :
    digitsAt cs = (cs, []) := by
  rw [digitsAt, List.takeWhile_eq_self_iff.2 digits, List.dropWhile_eq_nil_iff.2 digits]

theorem digitsAt_point {whole : List Char} (digits : ∀ c ∈ whole, isDigit c = true)
    (fraction : List Char) :
    digitsAt (whole ++ '.' :: fraction) = (whole, '.' :: fraction) := by
  have point : ¬ isDigit '.' = true := Bool.false_ne_true
  rw [digitsAt, rest_point digits, List.takeWhile_append_of_pos digits,
    List.takeWhile_cons_of_neg point, List.append_nil]

/-- Digits, and a fraction behind a point, are read as a decimal. -/
theorem readMagnitude?_of_digits {cs whole fraction : List Char} (negative : Bool)
    (digits : ∀ c ∈ whole ++ fraction, isDigit c = true) (some : whole ++ fraction ≠ [])
    (text : cs = whole ∧ fraction = [] ∨ cs = whole ++ '.' :: fraction) :
    readMagnitude? f negative cs =
      .some (ofDecimal f negative (digitsValue (whole ++ fraction)) (0 - fraction.length)) := by
  obtain ⟨left, right⟩ := List.forall_mem_append.1 digits
  have chars : ∀ c ∈ cs, isDigit c = true ∨ c = '.' := by
    intro c mem
    rcases text with ⟨rfl, -⟩ | rfl
    · exact .inl (left c mem)
    · rcases List.mem_append.1 mem with front | back
      · exact .inl (left c front)
      · exact (List.mem_cons.1 back).symm.imp_left (right c)
  obtain ⟨noNan, noInf⟩ := not_named_of_digits chars
  have filled : (whole.isEmpty && fraction.isEmpty) = false := by
    rw [Bool.and_eq_false_iff, List.isEmpty_eq_false_iff, List.isEmpty_eq_false_iff]
    rw [Ne, List.append_eq_nil_iff] at some
    tauto
  unfold readMagnitude?
  dsimp only
  rw [if_neg noNan, if_neg noInf]
  rcases text with ⟨rfl, rfl⟩ | rfl
  · rw [digitsAt_of_digits left]
    dsimp only
    rw [filled]
    rfl
  · rw [digitsAt_point left]
    change (if (whole.isEmpty && (digitsAt fraction).1.isEmpty) = true then none
      else (readExponent? (digitsAt fraction).2).map fun exponent =>
        ofDecimal f negative (digitsValue (whole ++ (digitsAt fraction).1))
          (exponent - (digitsAt fraction).1.length)) = _
    rw [digitsAt_of_digits right, filled]
    rfl

/-- Plain notation is a text of digits with a point that stands for the decimal. -/
theorem exists_plain_parts {d : DecimalDigits} (digits : ∀ c ∈ d.digits, isDigit c = true) :
    ∃ whole fraction, (d.plain = whole ∧ fraction = [] ∨ d.plain = whole ++ '.' :: fraction) ∧
      (∀ c ∈ whole ++ fraction, isDigit c = true) ∧
      (digitsValue (whole ++ fraction) * 10 ^ (0 - fraction.length : ℤ) : ℚ) = d.value := by
  rcases d.plain_cases with
    ⟨zeros, text, exponent⟩ | ⟨whole, fraction, text, ⟨zeros, parts⟩, exponent⟩
  · refine ⟨d.plain, [], .inl ⟨rfl, rfl⟩, ?_, ?_⟩
    · rw [List.append_nil, text]
      exact List.forall_mem_append.2 ⟨digits, fun _ => isDigit_of_mem_zeros⟩
    · rw [List.append_nil, text, digitsValue_append_zeros, DecimalDigits.value, exponent,
        zpow_natCast]
      simp
  · refine ⟨whole, fraction, .inr text, DecimalDigits.isDigit_of_mem_parts digits parts, ?_⟩
    rw [parts, digitsValue_zeros_append, DecimalDigits.value, exponent, zero_sub]

/-- The text of a number of units reads as the number. -/
theorem readMagnitude?_magnitude (few : f.FewDigits) (reach : f.InReach)
    (h : f.Representable units) :
    readMagnitude? f negative (magnitude f units) = some (.finite negative units h) := by
  rcases Nat.eq_zero_or_pos units with rfl | pos
  · have digits : ∀ c ∈ ['0'] ++ [], isDigit c = true := by simp [isDigit]
    have rounded : f.round 0 1 = 0 := Format.round_of_representable h
    have bound : f.round 0 1 < 2 ^ f.bound := by
      rw [rounded]
      exact h.lt_bound
    refine (readMagnitude?_of_digits negative digits (List.cons_ne_nil _ _)
      (.inl ⟨rfl, rfl⟩)).trans ?_
    unfold ofDecimal
    rw [if_pos (.inl rfl), zero, ofUnitRatio, dif_pos bound]
    simp only [rounded]
  · obtain ⟨n, e, nonzero, inside, text⟩ := shortest_spec few .up pos
    obtain ⟨whole, fraction, parts, digits, value⟩ := exists_plain_parts
      (d := DecimalDigits.ofNat n e) fun _ => DecimalDigits.isDigit_ofNat
    rw [DecimalDigits.value_ofNat] at value
    have point : (n * 10 ^ e : ℚ) ≠ 0 :=
      mul_ne_zero (Nat.cast_ne_zero.2 nonzero) (by positivity)
    have filled : digitsValue (whole ++ fraction) ≠ 0 := by
      intro none
      rw [none, Nat.cast_zero, zero_mul] at value
      exact point value.symm
    have some : whole ++ fraction ≠ [] := by
      intro none
      rw [none] at filled
      exact filled rfl
    rw [← value] at inside
    rw [magnitude, if_neg pos.ne', text, readMagnitude?_of_digits negative digits some parts,
      ofDecimal_of_contains reach h pos (Nat.pos_of_ne_zero filled) inside]

/-- A sign in front of a text without signs is read. -/
theorem read?_withSign {cs : List Char} (plain : '-' ∉ cs ∧ '+' ∉ cs) :
    read? f (withSign negative cs) = readMagnitude? f negative cs := by
  cases negative with
  | true => rfl
  | false =>
    show read? f cs = _
    unfold read?
    split
    · exact absurd List.mem_cons_self plain.1
    · exact absurd List.mem_cons_self plain.2
    · rfl

/-- **Texts of binary numbers read back**, with their signs. -/
theorem read?_display (few : f.FewDigits) (reach : f.InReach) (x : Binary f) :
    read? f x.display.toList = some x := by
  cases x with
  | nan =>
    have text : (nan : Binary f).display.toList = withSign false "NaN".toList := rfl
    rw [text, read?_withSign (by decide)]
    rfl
  | infinite negative =>
    have text : (infinite (f := f) negative).display.toList = withSign negative "inf".toList :=
      String.toList_ofList
    rw [text, read?_withSign (by decide)]
    rfl
  | finite negative units h =>
    have text : (finite negative units h).display.toList =
        withSign negative (magnitude f units) := String.toList_ofList
    have plain : '-' ∉ magnitude f units ∧ '+' ∉ magnitude f units :=
      ⟨minus_notMem_magnitude few,
        notMem_of_digits_point (fun _ => mem_magnitude few) rfl (by decide)⟩
    rw [text, read?_withSign plain, readMagnitude?_magnitude few reach h]

end Binary

/-! ## Decimals -/

namespace Decimal

variable {negative : Bool} {mantissa scale : ℕ} {cs : List Char}

/-- Reading more digits makes a number no smaller. -/
theorem le_ofDigitChars (cs : List Char) (n : ℕ) : n ≤ Nat.ofDigitChars 10 cs n := by
  induction cs generalizing n with
  | nil => exact Nat.le_refl _
  | cons c cs ih =>
    have step : n ≤ 10 * n + (c.toNat - '0'.toNat) := by omega
    exact Nat.le_trans step (ih _)

/-- Digits in front of the point are read into the magnitude. -/
theorem readDigits?_whole (digits : ∀ c ∈ cs, isDigit c = true) (rest : List Char) (any : Bool)
    (lt : Nat.ofDigitChars 10 cs mantissa < decimalBound) :
    readDigits? negative false any mantissa 0 (cs ++ rest) =
      readDigits? negative false (any || !cs.isEmpty) (Nat.ofDigitChars 10 cs mantissa) 0 rest := by
  induction cs generalizing mantissa any with
  | nil => simp
  | cons c cs ih =>
    obtain ⟨first, others⟩ := List.forall_mem_cons.1 digits
    have next : 10 * mantissa + digitValue c < decimalBound :=
      Nat.lt_of_le_of_lt (le_ofDigitChars cs _) lt
    rw [List.cons_append, readDigits?, if_pos first]
    dsimp only
    rw [if_neg (Nat.not_le.2 next)]
    refine (ih others true lt).trans ?_
    rw [Bool.true_or, List.isEmpty_cons, Bool.not_false, Bool.or_true]
    rfl

/-- Digits behind the point are read into the magnitude and the scale. -/
theorem readDigits?_fraction (digits : ∀ c ∈ cs, isDigit c = true)
    (within : scale + cs.length ≤ maxScale) (lt : Nat.ofDigitChars 10 cs mantissa < decimalBound) :
    readDigits? negative true true mantissa scale cs =
      signed? negative (Nat.ofDigitChars 10 cs mantissa) (scale + cs.length) := by
  induction cs generalizing mantissa scale with
  | nil => rfl
  | cons c cs ih =>
    obtain ⟨first, others⟩ := List.forall_mem_cons.1 digits
    have next : 10 * mantissa + digitValue c < decimalBound :=
      Nat.lt_of_le_of_lt (le_ofDigitChars cs _) lt
    rw [List.length_cons] at within ⊢
    rw [readDigits?, if_pos first]
    dsimp only
    rw [if_neg (Nat.not_le.2 next), if_pos rfl]
    by_cases last : maxScale ≤ scale + 1
    · -- the twenty-eighth decimal is the last one
      obtain rfl : cs = [] := List.eq_nil_of_length_eq_zero (by omega)
      have ends :
          (if mantissa < wordBound then [] else List.dropWhile (· == '_') ([] : List Char)) = [] :=
        ite_self _
      rw [if_pos (by simpa using last), ends]
      rfl
    · rw [if_neg (by simpa using last), Nat.add_comm cs.length, ← Nat.add_assoc]
      exact ih others (by omega) lt

/-- Digits with a point are read as they were written. -/
theorem readDigits?_placesDigits (lt : mantissa < decimalBound) (le : scale ≤ maxScale) :
    readDigits? negative false false 0 0 (Binary.placesDigits scale mantissa) =
      signed? negative mantissa scale := by
  have digits : ∀ c ∈ padDigits (scale + 1) mantissa, isDigit c = true := fun _ =>
    isDigit_of_mem_padDigits
  have length := le_length_padDigits (scale + 1) mantissa
  have value : Nat.ofDigitChars 10 (padDigits (scale + 1) mantissa) 0 = mantissa :=
    digitsValue_padDigits (scale + 1) mantissa
  unfold Binary.placesDigits
  dsimp only
  generalize padDigits (scale + 1) mantissa = all at digits length value
  have parts := List.take_append_drop (all.length - scale) all
  have size : (all.drop (all.length - scale)).length = scale := by
    rw [List.length_drop]
    omega
  have some : (all.take (all.length - scale)).isEmpty = false := by
    rw [List.isEmpty_eq_false_iff, ← List.length_pos_iff, List.length_take]
    omega
  generalize all.take (all.length - scale) = whole at parts some
  generalize all.drop (all.length - scale) = fraction at parts size
  rw [← parts] at digits value
  obtain ⟨left, right⟩ := List.forall_mem_append.1 digits
  rw [Nat.ofDigitChars_append] at value
  have fits : Nat.ofDigitChars 10 whole 0 < decimalBound :=
    Nat.lt_of_le_of_lt (le_ofDigitChars fraction _) (by rwa [value])
  split
  · next none =>
    obtain rfl : fraction = [] := List.eq_nil_of_length_eq_zero (size.trans none)
    have read : readDigits? negative false false 0 0 (whole ++ []) = _ :=
      readDigits?_whole left [] false fits
    rw [List.append_nil, some] at read
    rw [read, ← value, none]
    rfl
  · rw [readDigits?_whole left _ false fits, some]
    refine (readDigits?_fraction right (by rwa [Nat.zero_add, size]) (by rwa [value])).trans ?_
    rw [value, Nat.zero_add, size]

/-- A sign in front of a text without signs is read. -/
theorem readPlain?_withSign (plain : '-' ∉ cs ∧ '+' ∉ cs) :
    readPlain? (Binary.withSign negative cs) = readDigits? negative false false 0 0 cs := by
  cases negative with
  | true => rfl
  | false =>
    show readPlain? cs = _
    unfold readPlain?
    split
    · exact absurd List.mem_cons_self plain.1
    · exact absurd List.mem_cons_self plain.2
    · rfl

/-- A decimal as it is read: zero has no sign. -/
def plainZero (d : Decimal) : Decimal := { d with negative := d.negative && d.mantissa != 0 }

theorem plainZero_of_canonical {d : Decimal} (canonical : d.mantissa = 0 → d.negative = false) :
    d.plainZero = d := by
  have sign : (d.negative && d.mantissa != 0) = d.negative := by
    cases zero : d.mantissa != 0 with
    | true => rw [Bool.and_true]
    | false => rw [canonical (by simpa using zero), Bool.and_false]
  rw [plainZero, sign]

/-- **Texts of decimals are read** with their scales. A zero loses its sign. -/
theorem read?_display_eq (d : Decimal) : read? d.display.toList = some d.plainZero := by
  have plain : '-' ∉ Binary.placesDigits d.scale d.mantissa ∧
      '+' ∉ Binary.placesDigits d.scale d.mantissa :=
    ⟨notMem_of_digits_point (fun _ => mem_placesDigits) rfl (by decide),
      notMem_of_digits_point (fun _ => mem_placesDigits) rfl (by decide)⟩
  have text : d.display.toList =
      Binary.withSign d.negative (Binary.placesDigits d.scale d.mantissa) :=
    String.toList_ofList
  have whole : readPlain? d.display.toList = some d.plainZero := by
    rw [text, readPlain?_withSign plain, readDigits?_placesDigits d.mantissa_lt d.scale_le, signed?,
      ofParts?, dif_pos ⟨d.mantissa_lt, d.scale_le⟩]
    rfl
  rw [read?, whole]

theorem read?_display {d : Decimal} (canonical : d.mantissa = 0 → d.negative = false) :
    read? d.display.toList = some d := by
  rw [read?_display_eq, plainZero_of_canonical canonical]

end Decimal

end RecordQuery
