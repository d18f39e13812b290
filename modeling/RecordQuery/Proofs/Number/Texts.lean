import Mathlib.Data.List.TakeWhile
import RecordQuery.Number.Decimal
import RecordQuery.Proofs.Number.Shortest

/-!
# Numbers told apart by their texts

A text of digits with a point is read back from all its digits and the number of those behind the
point. A decimal writes just what it consists of. A binary number writes the shortest decimal in its
interval, and the intervals of different numbers have no point in common.

* `digits_point` and `rest_point`: the digits of a text with a point, and those behind it;
* `Decimal.display_inj`: texts tell decimals apart, with their scales and signs;
* `DecimalDigits.plain_cases`: what plain notation consists of, and
  `DecimalDigits.plainValue_plain`: it is read back as the decimal;
* `Binary.display_inj`: texts tell binary numbers apart, with their signs.
-/

namespace RecordQuery

open Text

variable {f : Format}

/-! ## Digits around a point -/

section Point

variable {whole fraction : List Char}

theorem digits_point (left : ∀ c ∈ whole, isDigit c = true)
    (right : ∀ c ∈ fraction, isDigit c = true) :
    (whole ++ '.' :: fraction).filter isDigit = whole ++ fraction := by
  have point : ¬ isDigit '.' = true := Bool.false_ne_true
  rw [List.filter_append, List.filter_eq_self.2 left, List.filter_cons_of_neg point,
    List.filter_eq_self.2 right]

theorem rest_point (left : ∀ c ∈ whole, isDigit c = true) :
    (whole ++ '.' :: fraction).dropWhile isDigit = '.' :: fraction := by
  have point : ¬ isDigit '.' = true := Bool.false_ne_true
  rw [List.dropWhile_append_of_pos left, List.dropWhile_cons_of_neg point]

/-- Another character is not in a text of digits with a point. -/
theorem notMem_of_digits_point {cs : List Char} {c : Char}
    (digits : ∀ c ∈ cs, isDigit c = true ∨ c = '.') (other : isDigit c = false)
    (point : c ≠ '.') : c ∉ cs := by
  intro mem
  rcases digits c mem with digit | rfl
  · rw [digit] at other
    cases other
  · exact point rfl

end Point

/-! ## Decimals -/

namespace Decimal

/-- All digits of a decimal, and the number of those behind the point. -/
theorem placesDigits_spec (places n : ℕ) :
    digitsValue ((Binary.placesDigits places n).filter isDigit) = n ∧
      ((Binary.placesDigits places n).dropWhile isDigit).length - 1 = places := by
  have digits : ∀ c ∈ padDigits (places + 1) n, isDigit c = true := fun _ mem =>
    isDigit_of_mem_padDigits mem
  have length := le_length_padDigits (places + 1) n
  have value := digitsValue_padDigits (places + 1) n
  unfold Binary.placesDigits
  dsimp only
  generalize padDigits (places + 1) n = all at digits length value
  split
  · next none =>
    have whole : all.take (all.length - places) = all := by
      rw [none, Nat.sub_zero, List.take_length]
    rw [whole, List.filter_eq_self.2 digits, List.dropWhile_eq_nil_iff.2 digits]
    exact ⟨value, none.symm⟩
  · have left : ∀ c ∈ all.take (all.length - places), isDigit c = true := fun c mem =>
      digits c (List.mem_of_mem_take mem)
    have right : ∀ c ∈ all.drop (all.length - places), isDigit c = true := fun c mem =>
      digits c (List.mem_of_mem_drop mem)
    rw [digits_point left right, rest_point left, List.take_append_drop, List.length_cons,
      List.length_drop]
    exact ⟨value, by omega⟩

theorem mem_placesDigits {places n : ℕ} {c : Char} (h : c ∈ Binary.placesDigits places n) :
    isDigit c = true ∨ c = '.' := by
  unfold Binary.placesDigits at h
  dsimp only at h
  split at h
  · exact .inl (isDigit_of_mem_padDigits (List.mem_of_mem_take h))
  · rcases List.mem_append.1 h with front | back
    · exact .inl (isDigit_of_mem_padDigits (List.mem_of_mem_take front))
    · rcases List.mem_cons.1 back with point | digit
      · exact .inr point
      · exact .inl (isDigit_of_mem_padDigits (List.mem_of_mem_drop digit))

/-- **The texts of decimals** tell them apart, with their scales and signs. -/
theorem display_inj {d e : Decimal} (h : d.display = e.display) : d = e := by
  have minus {places n : ℕ} : '-' ∉ Binary.placesDigits places n :=
    notMem_of_digits_point (fun _ => mem_placesDigits) rfl (by decide)
  obtain ⟨sign, digits⟩ := withSign_inj minus minus (String.ofList_injective h)
  obtain ⟨value, places⟩ := placesDigits_spec d.scale d.mantissa
  obtain ⟨value', places'⟩ := placesDigits_spec e.scale e.mantissa
  rw [digits] at value places
  have mantissa : d.mantissa = e.mantissa := value.symm.trans value'
  have scale : d.scale = e.scale := places.symm.trans places'
  cases d
  cases e
  cases sign
  cases mantissa
  cases scale
  rfl

end Decimal

/-! ## Plain notation read back -/

/-- What plain notation stands for: all its digits, over a power of ten for those behind the
point. -/
def plainValue (cs : List Char) : ℚ :=
  digitsValue (cs.filter isDigit) / 10 ^ ((cs.dropWhile isDigit).length - 1)

/-- What the digits of a decimal stand for. -/
def DecimalDigits.value (d : DecimalDigits) : ℚ :=
  digitsValue d.digits * 10 ^ (d.point - d.digits.length)

theorem plainValue_whole {cs : List Char} (digits : ∀ c ∈ cs, isDigit c = true) :
    plainValue cs = digitsValue cs := by
  rw [plainValue, List.filter_eq_self.2 digits, List.dropWhile_eq_nil_iff.2 digits]
  simp

theorem plainValue_point {whole fraction : List Char} (left : ∀ c ∈ whole, isDigit c = true)
    (right : ∀ c ∈ fraction, isDigit c = true) :
    plainValue (whole ++ '.' :: fraction) =
      digitsValue (whole ++ fraction) / 10 ^ fraction.length := by
  rw [plainValue, digits_point left right, rest_point left]
  rfl

namespace DecimalDigits

/-- What plain notation consists of: the digits with zeros at the end, or the digits with zeros in
front and a point among them. -/
theorem plain_cases (d : DecimalDigits) :
    (∃ zeros : ℕ, d.plain = d.digits ++ List.replicate zeros '0' ∧
        d.point - d.digits.length = zeros) ∨
      ∃ whole fraction, d.plain = whole ++ '.' :: fraction ∧
        (∃ zeros, whole ++ fraction = List.replicate zeros '0' ++ d.digits) ∧
        d.point - d.digits.length = -(fraction.length : ℤ) := by
  obtain ⟨cs, point⟩ := d
  unfold plain
  cases point with
  | negSucc p =>
    refine .inr ⟨['0'], List.replicate (p + 1) '0' ++ cs, rfl, ⟨p + 2, ?_⟩, ?_⟩
    · rw [← List.append_assoc]
      rfl
    · rw [List.length_append, List.length_replicate]
      dsimp only
      omega
  | ofNat p =>
    dsimp only
    split
    · next none =>
      subst none
      exact .inr ⟨['0'], cs, rfl, ⟨1, rfl⟩, Int.zero_sub _⟩
    · split
      · next long => exact .inl ⟨p - cs.length, rfl, (Int.ofNat_sub long).symm⟩
      · next short =>
        refine .inr ⟨cs.take p, cs.drop p, rfl, ⟨0, List.take_append_drop p cs⟩, ?_⟩
        rw [List.length_drop, Int.ofNat_sub (Nat.le_of_not_le short), Int.neg_sub]
        rfl

variable {d : DecimalDigits}

theorem isDigit_of_mem_parts (digits : ∀ c ∈ d.digits, isDigit c = true) {cs : List Char}
    {zeros : ℕ} (parts : cs = List.replicate zeros '0' ++ d.digits) :
    ∀ c ∈ cs, isDigit c = true := by
  rw [parts]
  exact List.forall_mem_append.2 ⟨fun _ => isDigit_of_mem_zeros, digits⟩

/-- Plain notation is read back as the decimal it was written for. -/
theorem plainValue_plain (digits : ∀ c ∈ d.digits, isDigit c = true) :
    plainValue d.plain = d.value := by
  rcases d.plain_cases with
    ⟨zeros, text, exponent⟩ | ⟨whole, fraction, text, ⟨zeros, parts⟩, exponent⟩
  · have all : ∀ c ∈ d.digits ++ List.replicate zeros '0', isDigit c = true :=
      List.forall_mem_append.2 ⟨digits, fun _ => isDigit_of_mem_zeros⟩
    rw [text, plainValue_whole all, digitsValue_append_zeros, value, exponent, zpow_natCast]
    push_cast
    rfl
  · have all := isDigit_of_mem_parts digits parts
    rw [text, plainValue_point (fun c mem => all c (List.mem_append_left _ mem))
      (fun c mem => all c (List.mem_append_right _ mem)), parts, digitsValue_zeros_append, value,
      exponent, zpow_neg, zpow_natCast, div_eq_mul_inv]

/-- Plain notation has digits and at most a point. -/
theorem mem_plain {c : Char} (digits : ∀ c ∈ d.digits, isDigit c = true) (h : c ∈ d.plain) :
    isDigit c = true ∨ c = '.' := by
  rcases d.plain_cases with ⟨zeros, text, -⟩ | ⟨whole, fraction, text, ⟨zeros, parts⟩, -⟩
  · rw [text] at h
    rcases List.mem_append.1 h with front | back
    · exact .inl (digits c front)
    · exact .inl (isDigit_of_mem_zeros back)
  · have all := isDigit_of_mem_parts digits parts
    rw [text] at h
    rcases List.mem_append.1 h with front | back
    · exact .inl (all c (List.mem_append_left _ front))
    · rcases List.mem_cons.1 back with point | last
      · exact .inr point
      · exact .inl (all c (List.mem_append_right _ last))

end DecimalDigits

/-! ## The decimal of a number -/

/-- Zeros at the end of the digits are left out. -/
theorem DecimalDigits.exists_zeros (n : ℕ) (e : ℤ) :
    ∃ k : ℕ, natDigits n = (ofNat n e).digits ++ List.replicate k '0' := by
  refine ⟨((natDigits n).reverse.takeWhile (· == '0')).length, ?_⟩
  have zeros : (natDigits n).reverse.takeWhile (· == '0') =
      List.replicate ((natDigits n).reverse.takeWhile (· == '0')).length '0' :=
    List.eq_replicate_of_mem fun c mem => by simpa using List.mem_takeWhile_imp mem
  have parts : (natDigits n).reverse.takeWhile (· == '0') ++
      (natDigits n).reverse.dropWhile (· == '0') = (natDigits n).reverse :=
    List.takeWhile_append_dropWhile
  calc natDigits n = (natDigits n).reverse.reverse := (List.reverse_reverse _).symm
    _ = ((natDigits n).reverse.dropWhile (· == '0')).reverse ++
        ((natDigits n).reverse.takeWhile (· == '0')).reverse := by
      rw [← List.reverse_append, parts]
    _ = _ := by rw [zeros, List.reverse_replicate, List.length_replicate]; rfl

theorem DecimalDigits.isDigit_ofNat {n : ℕ} {e : ℤ} {c : Char} (h : c ∈ (ofNat n e).digits) :
    isDigit c = true := by
  obtain ⟨k, all⟩ := exists_zeros n e
  refine isDigit_of_mem_natDigits (n := n) ?_
  rw [all]
  exact List.mem_append_left _ h

/-- The digits of a decimal stand for it. -/
theorem DecimalDigits.value_ofNat (n : ℕ) (e : ℤ) : (ofNat n e).value = n * 10 ^ e := by
  obtain ⟨k, all⟩ := exists_zeros n e
  have number : n = digitsValue (ofNat n e).digits * 10 ^ k := by
    rw [← digitsValue_append_zeros, ← all, digitsValue_natDigits]
  have length : (natDigits n).length = (ofNat n e).digits.length + k := by
    rw [all, List.length_append, List.length_replicate]
  have point : (ofNat n e).point = e + (natDigits n).length := rfl
  have exponent : (ofNat n e).point - (ofNat n e).digits.length = k + e := by
    rw [point, length]
    push_cast
    ring
  have cast : (n : ℚ) = digitsValue (ofNat n e).digits * 10 ^ k := by exact_mod_cast number
  rw [value, exponent, zpow_add₀ (by norm_num), zpow_natCast, cast]
  ring

/-- **Plain notation of the shortest decimal** tells the numbers of a format apart. -/
theorem shortest_plain_inj (few : f.FewDigits) (tie : DecimalTie) {m n : ℕ} (hm : f.Representable m)
    (hn : f.Representable n) (posM : 0 < m) (posN : 0 < n)
    (h : (shortest f tie m).plain = (shortest f tie n).plain) : m = n := by
  obtain ⟨a, e, -, inA, left⟩ := shortest_spec few tie posM
  obtain ⟨b, e', -, inB, right⟩ := shortest_spec few tie posN
  rw [left, right] at h
  have same : (a : ℚ) * 10 ^ e = b * 10 ^ e' := by
    rw [← DecimalDigits.value_ofNat, ← DecimalDigits.value_ofNat,
      ← DecimalDigits.plainValue_plain fun _ => DecimalDigits.isDigit_ofNat, h,
      DecimalDigits.plainValue_plain fun _ => DecimalDigits.isDigit_ofNat]
  rw [same] at inA
  exact inA.units_eq hm hn inB

/-! ## Texts of binary numbers -/

namespace Binary

/-- The text of a number of units without its sign. -/
def magnitude (f : Format) (units : ℕ) : List Char :=
  if units = 0 then ['0'] else (shortest f .up units).plain

theorem mem_magnitude (few : f.FewDigits) {units : ℕ} {c : Char} (h : c ∈ magnitude f units) :
    isDigit c = true ∨ c = '.' := by
  unfold magnitude at h
  split at h
  · exact .inl (List.mem_singleton.1 h ▸ rfl)
  · next some =>
    obtain ⟨n, e, -, -, text⟩ := shortest_spec few .up (Nat.pos_of_ne_zero some)
    rw [text] at h
    exact DecimalDigits.mem_plain (fun _ => DecimalDigits.isDigit_ofNat) h

theorem plainValue_magnitude_ne_zero (few : f.FewDigits) {units : ℕ} (some : units ≠ 0) :
    plainValue (magnitude f units) ≠ 0 := by
  obtain ⟨n, e, pos, -, text⟩ := shortest_spec few .up (Nat.pos_of_ne_zero some)
  have power : (10 : ℚ) ^ e ≠ 0 := by positivity
  rw [magnitude, if_neg some, text, DecimalDigits.plainValue_plain fun _ =>
    DecimalDigits.isDigit_ofNat, DecimalDigits.value_ofNat]
  exact mul_ne_zero (Nat.cast_ne_zero.2 pos) power

theorem magnitude_inj (few : f.FewDigits) {m n : ℕ} (hm : f.Representable m)
    (hn : f.Representable n) (h : magnitude f m = magnitude f n) : m = n := by
  have zero : plainValue (magnitude f 0) = 0 := by
    rw [magnitude, if_pos rfl, plainValue_whole (by simp [isDigit])]
    rfl
  rcases Nat.eq_zero_or_pos m with rfl | posM
  · by_contra other
    exact plainValue_magnitude_ne_zero few (Ne.symm other) (h ▸ zero)
  · rcases Nat.eq_zero_or_pos n with rfl | posN
    · exact absurd (h ▸ zero) (plainValue_magnitude_ne_zero few posM.ne')
    · rw [magnitude, magnitude, if_neg posM.ne', if_neg posN.ne'] at h
      exact shortest_plain_inj few .up hm hn posM posN h

theorem mem_withSign {negative : Bool} {cs : List Char} {c : Char} (h : c ∈ withSign negative cs) :
    c = '-' ∨ c ∈ cs := by
  cases negative with
  | false => exact .inr h
  | true => exact List.mem_cons.1 h

theorem minus_notMem_magnitude (few : f.FewDigits) {units : ℕ} : '-' ∉ magnitude f units :=
  notMem_of_digits_point (fun _ => mem_magnitude few) rfl (by decide)

/-- The text of a number that is not finite has a letter. -/
theorem display_finite_ne (few : f.FewDigits) {negative : Bool} {units : ℕ}
    (h : f.Representable units) {cs : List Char} {c : Char} (mem : c ∈ cs)
    (other : isDigit c = false) (minus : c ≠ '-') (point : c ≠ '.') :
    (finite negative units h).display ≠ String.ofList cs := by
  intro same
  have texts : withSign negative (magnitude f units) = cs := String.ofList_injective same
  rcases mem_withSign (texts ▸ mem) with sign | digit
  · exact minus sign
  · exact notMem_of_digits_point (fun _ => mem_magnitude few) other point digit

/-- **The texts of binary numbers** tell them apart, with their signs. -/
theorem display_inj (few : f.FewDigits) {x y : Binary f} (h : x.display = y.display) : x = y := by
  have letter (b : Bool) : 'n' ∈ withSign b "inf".toList := by cases b <;> decide
  have name_ne (b : Bool) : "NaN" ≠ String.ofList (withSign b "inf".toList) := by
    cases b <;> decide
  have finite_ne_nan {b : Bool} {units : ℕ} (hu : f.Representable units) :
      (finite b units hu).display ≠ "NaN" :=
    display_finite_ne few hu (show 'N' ∈ "NaN".toList by decide) rfl (by decide) (by decide)
  have finite_ne_infinite {b c : Bool} {units : ℕ} (hu : f.Representable units) :
      (finite b units hu).display ≠ (infinite (f := f) c).display :=
    display_finite_ne few hu (letter c) rfl (by decide) (by decide)
  cases x with
  | nan =>
    cases y with
    | nan => rfl
    | infinite b => exact absurd h (name_ne b)
    | finite b n hn => exact absurd h.symm (finite_ne_nan hn)
  | infinite a =>
    cases y with
    | nan => exact absurd h.symm (name_ne a)
    | infinite b =>
      obtain ⟨rfl, -⟩ := withSign_inj (by decide) (by decide) (String.ofList_injective h)
      rfl
    | finite b n hn => exact absurd h.symm (finite_ne_infinite hn)
  | finite a m hm =>
    cases y with
    | nan => exact absurd h (finite_ne_nan hm)
    | infinite b => exact absurd h (finite_ne_infinite hm)
    | finite b n hn =>
      obtain ⟨rfl, texts⟩ := withSign_inj (minus_notMem_magnitude few) (minus_notMem_magnitude few)
        (String.ofList_injective h)
      obtain rfl := magnitude_inj few hm hn texts
      rfl

end Binary

end RecordQuery
