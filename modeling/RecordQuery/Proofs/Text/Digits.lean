import RecordQuery.Number.Binary.Text
import RecordQuery.Proofs.Number.IntegerText

/-!
# Texts of digits

Digits are read back as the number that was written, with zeros in front or at the end, and in two
parts around a point.

* `digitsValue_append`: the digits of two parts;
* `lt_pow_length_natDigits` and `pow_length_natDigits_le`: how many digits a number has;
* `digitsValue_padDigits` and `padDigits_inj`: digits with zeros in front tell numbers apart, and
  `length_padDigits` says how many there are;
* `withSign_inj`: a sign in front of digits is told from them;
* `append_cons_inj`: a text is cut where a character first stands.
-/

namespace RecordQuery.Text

/-! ## Reading digits -/

theorem digitsValue_append (cs ds : List Char) :
    digitsValue (cs ++ ds) = digitsValue cs * 10 ^ ds.length + digitsValue ds := by
  rw [digitsValue, Nat.ofDigitChars_append, Nat.ofDigitChars_eq_ofDigitChars_zero, Nat.mul_comm]
  rfl

theorem digitsValue_zeros (count : Nat) : digitsValue (List.replicate count '0') = 0 := by
  rw [digitsValue, Nat.ofDigitChars_replicate_zero, Nat.mul_zero]

/-- Zeros in front of digits do not count. -/
theorem digitsValue_zeros_append (count : Nat) (cs : List Char) :
    digitsValue (List.replicate count '0' ++ cs) = digitsValue cs := by
  rw [digitsValue_append, digitsValue_zeros, Nat.zero_mul, Nat.zero_add]

/-- Every zero at the end makes the number ten times as great. -/
theorem digitsValue_append_zeros (cs : List Char) (count : Nat) :
    digitsValue (cs ++ List.replicate count '0') = digitsValue cs * 10 ^ count := by
  rw [digitsValue_append, digitsValue_zeros, List.length_replicate, Nat.add_zero]

/-! ## Counting digits -/

theorem length_natDigits_pos (n : Nat) : 0 < (natDigits n).length :=
  List.length_pos_iff.2 Nat.toDigits_ne_nil

theorem lt_pow_length_natDigits (n : Nat) : n < 10 ^ (natDigits n).length :=
  (Nat.length_toDigits_le_iff (by decide) (length_natDigits_pos n)).1 (Nat.le_refl _)

theorem pow_length_natDigits_le {n : Nat} (pos : 0 < n) : 10 ^ (natDigits n).length ≤ 10 * n := by
  have some := length_natDigits_pos n
  obtain ⟨k, length⟩ : ∃ k, (natDigits n).length = k + 1 := ⟨_, (Nat.sub_add_cancel some).symm⟩
  rw [length, Nat.pow_succ']
  refine Nat.mul_le_mul_left 10 ?_
  rcases Nat.eq_zero_or_pos k with rfl | more
  · exact pos
  · refine Nat.le_of_not_lt fun less => ?_
    have short := (Nat.length_toDigits_le_iff (by decide) more).2 less
    have long : (Nat.toDigits 10 n).length = k + 1 := length
    omega

/-! ## Padded digits -/

variable {width m n : Nat} {c : Char}

theorem isDigit_of_mem_zeros {count : Nat} (h : c ∈ List.replicate count '0') :
    isDigit c = true := by
  rw [List.eq_of_mem_replicate h]
  rfl

theorem isDigit_of_mem_padDigits (h : c ∈ padDigits width n) : isDigit c = true := by
  rcases List.mem_append.1 h with zero | digit
  · exact isDigit_of_mem_zeros zero
  · exact isDigit_of_mem_natDigits digit

theorem digitsValue_padDigits (width n : Nat) : digitsValue (padDigits width n) = n := by
  rw [padDigits, digitsValue_zeros_append, digitsValue_natDigits]

/-- Padded digits tell numbers apart, whatever their widths. -/
theorem padDigits_inj {width' : Nat} (h : padDigits width m = padDigits width' n) : m = n := by
  rw [← digitsValue_padDigits width m, h, digitsValue_padDigits]

theorem le_length_padDigits (width n : Nat) : width ≤ (padDigits width n).length := by
  rw [padDigits, List.length_append, List.length_replicate]
  omega

/-- Padded digits are read back. -/
theorem readNat?_padDigits (pos : 0 < width) (n : Nat) : readNat? (padDigits width n) = some n := by
  have some : (padDigits width n).isEmpty = false :=
    List.isEmpty_eq_false_iff.2 (List.length_pos_iff.1 (Nat.lt_of_lt_of_le pos
      (le_length_padDigits width n)))
  have digits : (padDigits width n).all isDigit = true :=
    List.all_eq_true.2 fun _ mem => isDigit_of_mem_padDigits mem
  rw [readNat?, some, digits, digitsValue_padDigits]
  rfl

/-- A number that has no more digits is written in exactly as many characters. -/
theorem length_padDigits (pos : 0 < width) (h : n < 10 ^ width) :
    (padDigits width n).length = width := by
  have digits : (natDigits n).length ≤ width :=
    (Nat.length_toDigits_le_iff (by decide) pos).2 h
  rw [padDigits, List.length_append, List.length_replicate]
  omega

/-! ## Signs -/

theorem ne_of_isDigit {d : Char} (digit : isDigit c = true) (other : isDigit d = false) :
    c ≠ d := by
  rintro rfl
  rw [digit] at other
  cases other

/-- A sign is told from digits. -/
theorem withSign_inj {s t : Bool} {cs ds : List Char} (hc : '-' ∉ cs) (hd : '-' ∉ ds)
    (h : Binary.withSign s cs = Binary.withSign t ds) : s = t ∧ cs = ds := by
  have other : isDigit '-' = false := rfl
  cases s <;> cases t
  · exact ⟨rfl, h⟩
  · have minus : '-' ∈ cs := by
      have front : cs = '-' :: ds := h
      rw [front]
      exact List.mem_cons_self
    exact absurd minus hc
  · have minus : '-' ∈ ds := by
      have front : '-' :: cs = ds := h
      rw [← front]
      exact List.mem_cons_self
    exact absurd minus hd
  · exact ⟨rfl, (List.cons.inj h).2⟩

/-! ## Parts -/

/-- A text is cut in one way where a character first stands. -/
theorem append_cons_inj {xs ys zs ws : List Char} (hx : c ∉ xs) (hy : c ∉ ys)
    (h : xs ++ c :: zs = ys ++ c :: ws) : xs = ys ∧ zs = ws := by
  induction xs generalizing ys with
  | nil =>
    cases ys with
    | nil => exact ⟨rfl, (List.cons.inj h).2⟩
    | cons y ys => exact absurd (List.mem_cons.2 (.inl (List.cons.inj h).1)) hy
  | cons x xs ih =>
    cases ys with
    | nil => exact absurd (List.mem_cons.2 (.inl (List.cons.inj h).1.symm)) hx
    | cons y ys =>
      obtain ⟨same, rest⟩ := List.cons.inj h
      obtain ⟨front, back⟩ := ih (fun mem => hx (List.mem_cons_of_mem x mem))
        (fun mem => hy (List.mem_cons_of_mem y mem)) rest
      exact ⟨by rw [same, front], back⟩

end RecordQuery.Text
