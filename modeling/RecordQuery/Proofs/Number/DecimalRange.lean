import RecordQuery.Number.Decimal.Conversion

/-!
# Binary numbers in the range of decimals

A binary number has a decimal exactly if it is finite and its magnitude lies below the bound of
decimals. What the conversion does to a magnitude on its way keeps it below the bound, since only
integral numbers reach it.

* `Binary.beyondDecimals`: the numbers that have none;
* `Decimal.Fits`: the parts of a decimal, which the last steps keep (`Decimal.fits_dropDecimals`,
  `Decimal.Fits.dropExcess`, `Decimal.Fits.dropZeroDecimals`);
* `Decimal.ofBinary?_eq_none_iff`: the conversion fails beyond decimals, and only there.
-/

namespace RecordQuery

variable {f : Format}

/-- Whether a number is not finite, or too large for a decimal. -/
def Binary.beyondDecimals : Binary f → Bool
  | .finite _ units _ => decimalBound * 2 ^ f.unit ≤ units
  | _ => true

namespace Decimal

/-- The parts of a decimal: a magnitude below the bound, with few enough decimals. -/
structure Fits (n : Nat × Nat) : Prop where
  magnitude_lt : n.1 < decimalBound
  scale_le : n.2 ≤ maxScale

theorem Fits.ofParts?_ne_none {n : Nat × Nat} (h : Fits n) (negative : Bool) :
    ofParts? negative n.1 n.2 ≠ none := by
  rw [ofParts?, dif_pos ⟨h.magnitude_lt, h.scale_le⟩]
  exact Option.some_ne_none _

/-! ## Steps of the conversion -/

theorem tenth_le (m : Nat) : tenth m ≤ m := by
  unfold tenth halfUp
  split <;> omega

/-- Halving and taking times five stay below the bound. -/
theorem divideByTwo_lt (count : Nat) {n : Nat × Nat} (h : n.1 < decimalBound) :
    (divideByTwo count n).1 < decimalBound := by
  induction count generalizing n with
  | zero => exact h
  | succ count ih =>
    obtain ⟨m, scale⟩ := n
    have half : m / 2 < decimalBound := Nat.lt_of_le_of_lt (Nat.div_le_self m 2) h
    rw [divideByTwo]
    split
    · exact ih half
    · split
      · exact ih ‹_›
      · exact ih half

/-- Without the decimals beyond the greatest scale, the parts are those of a decimal. -/
theorem fits_dropDecimals {count : Nat} {n : Nat × Nat} (h : n.1 < decimalBound)
    (excess : n.2 ≤ maxScale + count) : Fits (dropDecimals count n) := by
  induction count generalizing n with
  | zero => exact ⟨h, excess⟩
  | succ count ih =>
    obtain ⟨m, scale⟩ := n
    rw [dropDecimals]
    split
    · exact ⟨by decide, by decide⟩
    · exact ih (Nat.lt_of_le_of_lt (tenth_le m) h) (Nat.sub_le_of_le_add excess)

theorem Fits.dropExcess {m scale : Nat} (h : Fits (m, scale)) (bits : Nat) :
    Fits (dropExcess bits m scale) := by
  induction scale generalizing m with
  | zero => exact h
  | succ scale ih =>
    rw [Decimal.dropExcess]
    split
    · exact ih ⟨Nat.lt_of_le_of_lt (tenth_le m) h.magnitude_lt, Nat.le_of_succ_le h.scale_le⟩
    · exact h

theorem Fits.dropZeroDecimals {m scale : Nat} (h : Fits (m, scale)) :
    Fits (dropZeroDecimals m scale) := by
  induction scale generalizing m with
  | zero => exact h
  | succ scale ih =>
    rw [Decimal.dropZeroDecimals]
    split
    · exact ih ⟨Nat.lt_of_le_of_lt (Nat.div_le_self m 10) h.magnitude_lt,
        Nat.le_of_succ_le h.scale_le⟩
    · exact h

/-! ## The whole conversion -/

/-- Below the integral numbers, all magnitudes are below the bound. -/
theorem lt_of_spacing_lt (narrow : f.precision ≤ 96) {units : Nat}
    (h : f.spacing units < f.unit) : units < decimalBound * 2 ^ f.unit := by
  have significand : units < 2 ^ f.precision * 2 ^ f.spacing units :=
    (Nat.div_lt_iff_lt_mul (Nat.two_pow_pos _)).1 (f.lt_two_pow_spacing units)
  refine Nat.lt_of_lt_of_le significand (Nat.mul_le_mul ?_ ?_)
  · exact Nat.pow_le_pow_right (by decide) narrow
  · exact Nat.pow_le_pow_right (by decide) (Nat.le_of_lt h)

/-- **The conversion to a decimal fails** for numbers beyond decimals, and only for these. -/
theorem ofBinary?_eq_none_iff (narrow : f.precision ≤ 96) (x : Binary f) :
    ofBinary? x = none ↔ x.beyondDecimals = true := by
  cases x with
  | nan | infinite negative => simp [ofBinary?, Binary.beyondDecimals]
  | finite negative units representable =>
    simp only [Binary.beyondDecimals, decide_eq_true_eq]
    have bound : 0 < decimalBound * 2 ^ f.unit := Nat.mul_pos (by decide) (Nat.two_pow_pos _)
    rw [ofBinary?]
    by_cases zero : units = 0
    · rw [if_pos zero]
      have fits : Fits (0, 0) := ⟨by decide, by decide⟩
      exact iff_of_false (fits.ofParts?_ne_none negative) (by omega)
    rw [if_neg zero]
    dsimp only
    by_cases integral : f.unit ≤ f.spacing units
    · rw [if_pos integral, ofParts?]
      have reaches : units / 2 ^ f.unit < decimalBound ↔ units < decimalBound * 2 ^ f.unit :=
        Nat.div_lt_iff_lt_mul (Nat.two_pow_pos _)
      simp [reaches]
    · rw [if_neg integral]
      have significand : units / 2 ^ f.spacing units < decimalBound :=
        Nat.lt_of_lt_of_le (f.lt_two_pow_spacing units) (Nat.pow_le_pow_right (by decide) narrow)
      have divided := divideByTwo_lt (f.unit - f.spacing units)
        (n := (units / 2 ^ f.spacing units, 0)) significand
      have fits := fits_dropDecimals divided (Nat.sub_le_iff_le_add'.1 (Nat.le_refl _))
      exact iff_of_false
        ((fits.dropExcess (significantBits f)).dropZeroDecimals.ofParts?_ne_none negative)
        (Nat.not_le_of_lt (lt_of_spacing_lt narrow (Nat.lt_of_not_le integral)))

end Decimal

end RecordQuery
