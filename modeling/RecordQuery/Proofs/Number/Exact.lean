import RecordQuery.Number.Decimal.Conversion

/-!
# Integers in other number formats

Rounding to a binary format changes nothing about a number that the format holds, and a decimal
holds every integer of 64 bits. So the integers that both hold keep their places.

* `Format.round_of_representable`: a number that the format holds rounds to itself;
* `Binary.position?_ofInt`: the place of an integer that the format holds, and
  `Binary.position?_ofInt_double`: the format of 64 bits holds the integers up to `2 ^ 53`;
* `Binary.convert_single`: a number of 32 bits stays the same with 64 bits;
* `Binary.eq_iff_compare?`: numbers that are equal by value and have one sign are the same;
* `Decimal.position_ofInt64`: the place of an integer among the decimals.
-/

namespace RecordQuery

theorem halfEven_of_dvd {num den : Nat} (pos : 0 < den) (h : den ∣ num) :
    halfEven num den = num / den := by
  have rest : num % den = 0 := Nat.mod_eq_zero_of_dvd h
  simp [halfEven, rest, pos]

theorem halfEven_mul_right {d : Nat} (pos : 0 < d) (num den : Nat) :
    halfEven (num * d) (den * d) = halfEven num den := by
  have rest (m n : Nat) : m * d < n * d ↔ m < n := Nat.mul_lt_mul_right pos
  have twice : 2 * (num % den * d) = 2 * (num % den) * d := (Nat.mul_assoc ..).symm
  simp only [halfEven, Nat.mul_div_mul_right _ _ pos, Nat.mul_mod_mul_right, twice, rest]

/-- The size of a number and its sign make the number. -/
theorem Binary.signed_natAbs (n : Int) : signed (n < 0) n.natAbs = n := by
  unfold signed
  split
  · next negative =>
    have below : n < 0 := by simpa using negative
    omega
  · next other =>
    have above : 0 ≤ n := by simpa using other
    omega

/-! ## Binary numbers -/

namespace Format

variable {f : Format}

/-- Numbers are no further apart at a shifted significand than the shift says. -/
theorem spacing_le {significand shift : Nat} (h : significand < 2 ^ f.precision) :
    f.spacing (significand * 2 ^ shift) ≤ shift := by
  unfold spacing
  split
  · exact Nat.zero_le _
  · next large =>
    have some : significand * 2 ^ shift ≠ 0 := by
      intro zero
      exact large (zero ▸ Nat.two_pow_pos _)
    have lt : significand * 2 ^ shift < 2 ^ (f.precision + shift) := by
      rw [Nat.pow_add]
      exact Nat.mul_lt_mul_of_pos_right h (Nat.two_pow_pos _)
    have log : (significand * 2 ^ shift).log2 < f.precision + shift := (Nat.log2_lt some).2 lt
    omega

/-- An integer is rounded to a multiple of the spacing. -/
theorem round_one (f : Format) (units : Nat) :
    f.round units 1 = halfEven units (2 ^ f.spacing units) * 2 ^ f.spacing units := by
  rw [round, Nat.div_one, Nat.one_mul]

/-- A significand with zeros behind it is kept. -/
theorem round_significand {significand : Nat} (h : significand < 2 ^ f.precision) (shift : Nat) :
    f.round (significand * 2 ^ shift) 1 = significand * 2 ^ shift := by
  have dvd : 2 ^ f.spacing (significand * 2 ^ shift) ∣ significand * 2 ^ shift :=
    Nat.dvd_mul_left_of_dvd (Nat.pow_dvd_pow 2 (spacing_le h)) significand
  rw [round_one, halfEven_of_dvd (Nat.two_pow_pos _) dvd, Nat.div_mul_cancel dvd]

/-- **A number that the format holds** rounds to itself. -/
theorem round_of_representable {units : Nat} (h : f.Representable units) :
    f.round units 1 = units := by
  obtain ⟨significand, shift, lt, rfl⟩ := h.exact
  exact round_significand lt shift

/-- A quotient without a rest is rounded like an integer. -/
theorem round_mul_self {d : Nat} (pos : 0 < d) (units : Nat) :
    f.round (units * d) d = f.round units 1 := by
  rw [round_one, round, Nat.mul_div_cancel _ pos, Nat.mul_comm d, halfEven_mul_right pos]

/-- The units of 32 bits are `2 ^ widening` units of 64 bits. -/
def widening : Nat := 925

/-- The units of 32 bits, counted in units of 64 bits. -/
theorem Representable.of_single {units : Nat} (h : single.Representable units) :
    double.Representable (units * 2 ^ widening) := by
  constructor
  · calc units * 2 ^ widening < 2 ^ single.bound * 2 ^ widening :=
        Nat.mul_lt_mul_of_pos_right h.lt_bound (Nat.two_pow_pos _)
      _ = 2 ^ (single.bound + widening) := (Nat.pow_add ..).symm
      _ < 2 ^ double.bound := Nat.pow_lt_pow_right (by decide) (by decide)
  · obtain ⟨significand, shift, lt, rfl⟩ := h.exact
    refine ⟨significand, shift + widening, Nat.lt_trans lt (by decide), ?_⟩
    rw [Nat.mul_assoc, ← Nat.pow_add]

/-- A format holds every number that has a significand and is below its bound. -/
theorem representable_mul_two_pow {n e : Nat} (less : n < 2 ^ f.precision)
    (inside : f.precision + e ≤ f.bound) : f.Representable (n * 2 ^ e) := by
  refine ⟨?_, n, e, less, rfl⟩
  calc n * 2 ^ e < 2 ^ f.precision * 2 ^ e := Nat.mul_lt_mul_of_pos_right less (Nat.two_pow_pos e)
    _ = 2 ^ (f.precision + e) := (Nat.pow_add ..).symm
    _ ≤ 2 ^ f.bound := Nat.pow_le_pow_right (by decide) inside

/-- A format holds the integers that are no larger than its significands. -/
theorem representable_mul_two_pow_unit {n : Nat} (h : n ≤ 2 ^ f.precision)
    (inside : f.precision + f.unit < f.bound) : f.Representable (n * 2 ^ f.unit) := by
  constructor
  · calc n * 2 ^ f.unit ≤ 2 ^ f.precision * 2 ^ f.unit := Nat.mul_le_mul_right _ h
      _ = 2 ^ (f.precision + f.unit) := (Nat.pow_add ..).symm
      _ < 2 ^ f.bound := Nat.pow_lt_pow_right (by decide) inside
  · rcases Nat.lt_or_eq_of_le h with lt | rfl
    · exact ⟨n, f.unit, lt, rfl⟩
    · refine ⟨1, f.precision + f.unit, ?_, ?_⟩
      · exact Nat.one_lt_two_pow (Nat.pos_iff_ne_zero.1 f.precision_pos)
      · rw [Nat.one_mul, Nat.pow_add]

end Format

namespace Binary

variable {f : Format} {n : Int}

theorem ofInt_eq (h : f.Representable (n.natAbs * 2 ^ f.unit)) :
    ofInt f n = .finite (n < 0) (n.natAbs * 2 ^ f.unit) h := by
  have exact : f.round (n.natAbs * 2 ^ f.unit) 1 = n.natAbs * 2 ^ f.unit :=
    Format.round_of_representable h
  have lt : f.round (n.natAbs * 2 ^ f.unit) 1 < 2 ^ f.bound := exact.symm ▸ h.lt_bound
  rw [ofInt, ofRatio, ofUnitRatio, dif_pos lt]
  simp only [exact]

theorem signed_mul (negative : Bool) (m k : Nat) :
    signed negative (m * k) = signed negative m * k := by
  cases negative with
  | false => exact Int.natCast_mul m k
  | true => exact (congrArg Neg.neg (Int.natCast_mul m k)).trans (Int.neg_mul m k).symm

/-- An integer that the format holds has the place of its units. -/
theorem position?_ofInt (h : f.Representable (n.natAbs * 2 ^ f.unit)) :
    (ofInt f n).position? = some (n * (2 ^ f.unit : Nat)) := by
  rw [ofInt_eq h, position?, signed_mul, signed_natAbs]

theorem position?_ofInt_double (h : n.natAbs ≤ 2 ^ (53 : Nat)) :
    (ofInt .double n).position? = some (n * (2 ^ Format.double.unit : Nat)) :=
  position?_ofInt (Format.representable_mul_two_pow_unit h (by decide))

theorem convert_ne_nan (g : Format) {x : Binary f} (h : x ≠ .nan) :
    x.convert g ≠ .nan := by
  cases x with
  | nan => exact absurd rfl h
  | infinite negative =>
    intro same
    cases same
  | finite negative units representable =>
    rw [convert, ofRatio, ofUnitRatio]
    split <;> (intro same; cases same)

theorem isNegative_convert (g : Format) (x : Binary f) :
    (x.convert g).isNegative = x.isNegative := by
  cases x with
  | nan => rfl
  | infinite negative => rfl
  | finite negative units representable =>
    rw [convert, ofRatio, ofUnitRatio]
    split <;> rfl

/-- **A number of 32 bits** stays the same with 64 bits. -/
theorem convert_single {negative : Bool} {units : Nat} (h : Format.single.Representable units) :
    (finite negative units h).convert .double =
      .finite negative (units * 2 ^ Format.widening) h.of_single := by
  have unit : Format.double.unit = Format.widening + Format.single.unit := rfl
  have exact : Format.double.round (units * 2 ^ Format.double.unit) (2 ^ Format.single.unit) =
      units * 2 ^ Format.widening := by
    rw [unit, Nat.pow_add, ← Nat.mul_assoc, Format.round_mul_self (Nat.two_pow_pos _),
      Format.round_of_representable h.of_single]
  have lt : Format.double.round (units * 2 ^ Format.double.unit) (2 ^ Format.single.unit) <
      2 ^ Format.double.bound := exact.symm ▸ h.of_single.lt_bound
  rw [convert, ofRatio, ofUnitRatio, dif_pos lt]
  simp only [exact]

/-- Numbers of 32 bits that are equal with 64 bits are the same. -/
theorem convert_single_inj {x y : Single} (h : x.convert .double = y.convert .double) : x = y := by
  cases x with
  | nan =>
    cases y with
    | nan => rfl
    | infinite b => cases h
    | finite b n hn =>
      rw [convert_single] at h
      cases h
  | infinite a =>
    cases y with
    | nan => cases h
    | infinite b =>
      obtain rfl := (infinite.inj h)
      rfl
    | finite b n hn =>
      rw [convert_single] at h
      cases h
  | finite a m hm =>
    rw [convert_single] at h
    cases y with
    | nan => cases h
    | infinite b => cases h
    | finite b n hn =>
      rw [convert_single] at h
      obtain ⟨rfl, same⟩ := finite.inj h
      obtain rfl := Nat.eq_of_mul_eq_mul_right (Nat.two_pow_pos _) same
      rfl

variable {x y : Binary f}

/-! ## Equality by value -/

/-- The place of a number and its sign make the number. -/
theorem eq_of_position? {p : Int} (hx : x.position? = some p) (hy : y.position? = some p)
    (sign : x.isNegative = y.isNegative) : x = y := by
  have place : x.position? = y.position? := hx.trans hy.symm
  have units_eq {a : Bool} {m n : Nat} (h : signed a m = signed a n) : m = n := by
    cases a <;> (simp only [signed] at h; omega)
  cases x with
  | nan => cases hx
  | infinite a =>
    cases y with
    | nan => cases hy
    | infinite b =>
      obtain rfl : a = b := sign
      rfl
    | finite b n hn =>
      obtain rfl : a = b := sign
      exact absurd (units_eq (Option.some.inj place)) (Nat.ne_of_gt hn.lt_bound)
  | finite a m hm =>
    cases y with
    | nan => cases hy
    | infinite b =>
      obtain rfl : a = b := sign
      exact absurd (units_eq (Option.some.inj place)) (Nat.ne_of_lt hm.lt_bound)
    | finite b n hn =>
      obtain rfl : a = b := sign
      obtain rfl := units_eq (Option.some.inj place)
      rfl

theorem exists_position? (h : x ≠ .nan) : ∃ p, x.position? = some p := by
  cases x with
  | nan => exact absurd rfl h
  | infinite a => exact ⟨_, rfl⟩
  | finite a m hm => exact ⟨_, rfl⟩

/-- **Numbers that are equal by value** and have one sign are the same. -/
theorem eq_iff_compare? (hx : x ≠ .nan) (hy : y ≠ .nan) :
    x = y ↔ x.compare? y = some .eq ∧ x.isNegative = y.isNegative := by
  obtain ⟨p, left⟩ := exists_position? hx
  obtain ⟨q, right⟩ := exists_position? hy
  constructor
  · rintro rfl
    rw [compare?, left]
    exact ⟨congrArg some (Int.compare_eq_eq.2 rfl), rfl⟩
  · rintro ⟨order, sign⟩
    rw [compare?, left, right] at order
    obtain rfl := Int.compare_eq_eq.1 (Option.some.inj order)
    exact eq_of_position? left right sign

end Binary

/-! ## Decimal numbers -/

theorem Decimal.position_ofInt64 (n : Int64) :
    (ofInt64 n).position = n.toInt * (10 ^ maxScale : Nat) := by
  have place : (ofInt64 n).position =
      Binary.signed (n.toInt < 0) (n.toInt.natAbs * 10 ^ maxScale) := rfl
  rw [place, Binary.signed_mul, Binary.signed_natAbs]

/-- Decimals that are equal by value and noted alike are the same. -/
theorem Decimal.eq_iff_compare {d e : Decimal} :
    d = e ↔ d.compare e = .eq ∧ d.scale = e.scale ∧ d.negative = e.negative := by
  constructor
  · rintro rfl
    exact ⟨Std.compare_self, rfl, rfl⟩
  · rintro ⟨order, scale, sign⟩
    have place : d.position = e.position := Int.compare_eq_eq.1 order
    have mantissa : d.mantissa = e.mantissa := by
      unfold Decimal.position at place
      rw [scale, sign] at place
      have power : 0 < 10 ^ (maxScale - e.scale) := Nat.pow_pos (by decide)
      refine Nat.eq_of_mul_eq_mul_right power ?_
      dsimp only at place
      split at place <;> omega
    cases d
    cases e
    cases scale
    cases sign
    cases mantissa
    rfl

end RecordQuery
