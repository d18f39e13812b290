import RecordQuery.Proofs.Number.Roundings
import RecordQuery.Proofs.Text.Digits

/-!
# Integers with 53 bits

A number of 64 bits has a significand of 53 bits, so an integer with more of them becomes the
nearest one that has no more. Written without decimals it is this integer.

* `Format.round_mul_two_pow`: an integer is rounded as its units are;
* `nearestDouble` is the integer that is nearest, `nearestDouble_eq_self_iff` says which integers
  stay as they are, and `isNearest_nearestDouble` how near the others come;
* `Binary.fixed_ofInt`: the text of an integer without decimals.
-/

namespace RecordQuery

open Text

namespace Format

variable {f : Format} {m : Nat}

/-! ## Rounding integers -/

/-- The spacing grows with the zeros behind a number that has all its bits. -/
theorem spacing_mul_two_pow (large : 2 ^ f.precision ≤ m) (u : Nat) :
    f.spacing (m * 2 ^ u) = f.spacing m + u := by
  have pos : m ≠ 0 := Nat.ne_of_gt (Nat.lt_of_lt_of_le (Nat.two_pow_pos _) large)
  have more : 2 ^ f.precision ≤ m * 2 ^ u :=
    Nat.le_trans large (Nat.le_mul_of_pos_right m (Nat.two_pow_pos u))
  have bits : f.precision ≤ m.log2 := (Nat.le_log2 pos).2 large
  have log : (m * 2 ^ u).log2 = m.log2 + u := by
    rw [Nat.log2_eq_iff (Nat.mul_ne_zero pos (Nat.two_pow_pos u).ne'), Nat.add_right_comm,
      Nat.pow_add, Nat.pow_add _ _ u]
    exact ⟨Nat.mul_le_mul_right _ (Nat.log2_self_le pos),
      Nat.mul_lt_mul_of_pos_right Nat.lt_log2_self (Nat.two_pow_pos u)⟩
  rw [spacing, spacing, if_neg (Nat.not_lt.2 more), if_neg (Nat.not_lt.2 large), log]
  omega

/-- Integers of no more bits than a significand are kept, and so is the first one with more. -/
theorem round_of_le (small : m ≤ 2 ^ f.precision) : f.round m 1 = m := by
  rcases Nat.lt_or_eq_of_le small with less | rfl
  · have whole := round_significand less 0
    rwa [Nat.pow_zero, Nat.mul_one] at whole
  · have one : 1 < 2 ^ f.precision := Nat.one_lt_two_pow (Nat.ne_of_gt f.precision_pos)
    have whole := round_significand one f.precision
    rwa [Nat.one_mul] at whole

/-- An integer is rounded as its units are. -/
theorem round_mul_two_pow (m u : Nat) : f.round (m * 2 ^ u) 1 = f.round m 1 * 2 ^ u := by
  rcases Nat.lt_or_ge m (2 ^ f.precision) with small | large
  · rw [round_significand small, round_of_le small.le]
  · rw [round_one, round_one, spacing_mul_two_pow large, Nat.pow_add,
      halfEven_mul_right (Nat.two_pow_pos u), Nat.mul_assoc]

/-- An integer is kept if its bits before its zeros fit in a significand. -/
theorem round_eq_self_iff :
    f.round m 1 = m ↔ ∃ significand shift,
      significand < 2 ^ f.precision ∧ m = significand * 2 ^ shift := by
  constructor
  · intro same
    rw [round_one] at same
    have dvd : 2 ^ f.spacing m ∣ m := ⟨_, same.symm.trans (Nat.mul_comm _ _)⟩
    exact ⟨_, f.spacing m, f.lt_two_pow_spacing m, (Nat.div_mul_cancel dvd).symm⟩
  · rintro ⟨significand, shift, small, rfl⟩
    exact round_significand small shift

/-- The spacing is no larger than the number. -/
theorem two_pow_spacing_le (pos : 0 < m) : 2 ^ f.spacing m ≤ m := by
  by_cases fine : f.spacing m = 0
  · rw [fine]
    exact pos
  · exact Nat.le_trans (Nat.pow_le_pow_right (by decide) (Nat.le_add_left _ _))
      ((f.spacing_spec m).2 fine)

theorem round_le (f : Format) (m : Nat) : f.round m 1 ≤ 2 * m := by
  rcases Nat.eq_zero_or_pos m with rfl | pos
  · exact Nat.le_of_eq (round_of_le (Nat.zero_le _))
  · rw [round_one]
    calc halfEven m (2 ^ f.spacing m) * 2 ^ f.spacing m
        ≤ (m / 2 ^ f.spacing m + 1) * 2 ^ f.spacing m := Nat.mul_le_mul_right _ (halfEven_le ..)
      _ = m / 2 ^ f.spacing m * 2 ^ f.spacing m + 2 ^ f.spacing m := Nat.succ_mul ..
      _ ≤ m + m := Nat.add_le_add (Nat.div_mul_le_self ..) (two_pow_spacing_le pos)
      _ = 2 * m := (Nat.two_mul m).symm

theorem round_pos (pos : 0 < m) : 0 < f.round m 1 := by
  rw [round_one]
  have some : 0 < m / 2 ^ f.spacing m :=
    Nat.div_pos (two_pow_spacing_le pos) (Nat.two_pow_pos _)
  exact Nat.mul_pos (Nat.lt_of_lt_of_le some (le_halfEven ..)) (Nat.two_pow_pos _)

end Format

/-! ## The nearest integer with 53 bits -/

/-- The nearest integer that a number of 64 bits holds. -/
def nearestDouble (n : Int) : Int :=
  Binary.signed (n < 0) (Format.double.round n.natAbs 1)

variable {n : Int}

theorem natAbs_nearestDouble (n : Int) :
    (nearestDouble n).natAbs = Format.double.round n.natAbs 1 := by
  rw [nearestDouble, Binary.signed]
  split <;> omega

theorem nearestDouble_neg_iff : nearestDouble n < 0 ↔ n < 0 := by
  rw [nearestDouble, Binary.signed]
  split
  · next negative =>
    have below : n < 0 := of_decide_eq_true negative
    have pos : 0 < Format.double.round n.natAbs 1 := Format.round_pos (by omega)
    omega
  · next other =>
    have above : ¬ n < 0 := fun below => other (decide_eq_true below)
    omega

/-- **The integers that stay as they are** have at most 53 bits before their zeros. -/
theorem nearestDouble_eq_self_iff :
    nearestDouble n = n ↔ ∃ significand shift,
      significand < 2 ^ 53 ∧ n.natAbs = significand * 2 ^ shift := by
  refine Iff.trans ?_ (Format.round_eq_self_iff (f := .double))
  rw [← natAbs_nearestDouble]
  constructor
  · intro same
    rw [same]
  · intro size
    have sign := nearestDouble_neg_iff (n := n)
    omega

theorem nearestDouble_of_le (small : n.natAbs ≤ 2 ^ 53) : nearestDouble n = n :=
  nearestDouble_eq_self_iff.2 ((Format.round_eq_self_iff (f := .double)).1
    (Format.round_of_le small))

/-- **The others become the nearest multiple** of a power of two, of two such the even one. -/
theorem isNearest_nearestDouble (n : Int) :
    ∃ k : ℤ, nearestDouble n = k * (2 ^ Format.double.spacing n.natAbs : ℕ) ∧
      IsNearest (n / (2 ^ Format.double.spacing n.natAbs : ℕ)) k := by
  set step := 2 ^ Format.double.spacing n.natAbs
  have near : IsNearest (n.natAbs / step) (halfEven n.natAbs step : ℕ) :=
    isNearest_halfEven (Nat.two_pow_pos _)
  have size : Format.double.round n.natAbs 1 = halfEven n.natAbs step * step :=
    Format.double.round_one n.natAbs
  rw [nearestDouble, size, Binary.signed_mul]
  refine ⟨_, rfl, ?_⟩
  rw [Binary.signed]
  split
  · next negative =>
    have below : n < 0 := of_decide_eq_true negative
    have value : (n : ℚ) = -(n.natAbs : ℚ) := by
      rw [Nat.cast_natAbs, abs_of_neg below, Int.cast_neg, neg_neg]
    rw [value, neg_div]
    exact near.neg
  · next other =>
    have above : 0 ≤ n := Int.not_lt.1 fun below => other (decide_eq_true below)
    have value : (n : ℚ) = n.natAbs := by rw [Nat.cast_natAbs, abs_of_nonneg above]
    rw [value]
    exact near

/-! ## The text of an integer -/

theorem intDigits_eq (n : Int) : intDigits n = Binary.withSign (n < 0) (natDigits n.natAbs) := by
  cases n with
  | ofNat n => rfl
  | negSucc n =>
    rw [decide_eq_true (Int.negSucc_lt_zero n)]
    rfl

namespace Binary

/-- An integer becomes the nearest one that the format holds. -/
theorem ofInt_eq_round {f : Format} (bound : f.round n.natAbs 1 * 2 ^ f.unit < 2 ^ f.bound) :
    ∃ h, ofInt f n = .finite (n < 0) (f.round n.natAbs 1 * 2 ^ f.unit) h := by
  have units := Format.round_mul_two_pow (f := f) n.natAbs f.unit
  have inside : f.round (n.natAbs * 2 ^ f.unit) 1 < 2 ^ f.bound := units ▸ bound
  refine ⟨units ▸ f.round_representable inside, ?_⟩
  rw [ofInt, ofRatio, ofUnitRatio, dif_pos inside]
  simp only [units]

theorem placesDigits_zero (m : Nat) : placesDigits 0 m = natDigits m := by
  have filled : 1 - (natDigits m).length = 0 := Nat.sub_eq_zero_of_le (length_natDigits_pos m)
  simp only [placesDigits, padDigits, filled, if_true, Nat.zero_add, List.replicate_zero,
    List.nil_append, Nat.sub_zero, List.take_length]

/-- **An integer without decimals** is written as the nearest one with 53 bits. -/
theorem fixed_ofInt (size : n.natAbs ≤ 2 ^ 64) :
    (ofInt .double n).fixed 0 = intText (nearestDouble n) := by
  have bound : Format.double.round n.natAbs 1 * 2 ^ Format.double.unit <
      2 ^ Format.double.bound := by
    calc Format.double.round n.natAbs 1 * 2 ^ Format.double.unit
        ≤ 2 * 2 ^ 64 * 2 ^ Format.double.unit :=
          Nat.mul_le_mul_right _ (Nat.le_trans (Format.round_le _ _) (Nat.mul_le_mul_left 2 size))
      _ = 2 ^ (1 + 64 + Format.double.unit) := by rw [Nat.pow_add, Nat.pow_add, Nat.pow_one]
      _ < 2 ^ Format.double.bound := Nat.pow_lt_pow_right (by decide) (by decide)
  obtain ⟨h, value⟩ := ofInt_eq_round bound
  have sign : decide (nearestDouble n < 0) = decide (n < 0) :=
    decide_eq_decide.2 nearestDouble_neg_iff
  rw [value, fixed, Nat.pow_zero, Nat.mul_one,
    halfEven_of_dvd (Nat.two_pow_pos _) (Nat.dvd_mul_left _ _),
    Nat.mul_div_cancel _ (Nat.two_pow_pos _), placesDigits_zero, intText, intDigits_eq, sign,
    natAbs_nearestDouble]

end Binary

end RecordQuery
