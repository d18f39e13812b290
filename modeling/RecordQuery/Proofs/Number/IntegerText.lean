import RecordQuery.Number.Integer
import RecordQuery.Text.Blank
import RecordQuery.Text.LowerCase

/-!
# Integers as texts

An integer is written in ASCII digits, with a minus sign where it is negative. Such a text has no
blanks and no letters, and reading it gives back the integer.

* `readInt?_intDigits`: reading what was written, and `intText_inj`: texts tell integers apart;
* `trim_intDigits` and `lower_intText`: trimming and lower-casing leave these texts as they are.
-/

namespace RecordQuery

open Text

/-! ## Digits -/

theorem isDigit_of_mem_natDigits {n : Nat} {c : Char} (h : c ∈ natDigits n) : isDigit c = true :=
  Nat.isDigit_of_mem_toDigits (by decide) (by decide) h

/-- The code points of digits. -/
theorem toNat_of_isDigit {c : Char} (h : isDigit c = true) : 0x30 ≤ c.toNat ∧ c.toNat ≤ 0x39 := by
  obtain ⟨lower, upper⟩ : '0' ≤ c ∧ c ≤ '9' := by simpa [isDigit] using h
  exact ⟨lower, upper⟩

theorem readNat?_natDigits (n : Nat) : readNat? (natDigits n) = some n := by
  have some : (natDigits n).isEmpty = false := List.isEmpty_eq_false_iff.2 Nat.toDigits_ne_nil
  have digits : (natDigits n).all isDigit = true :=
    List.all_eq_true.2 fun _ mem => isDigit_of_mem_natDigits mem
  rw [readNat?, some, digits, digitsValue_natDigits]
  rfl

/-- A text of digits is read without a sign. -/
theorem readInt?_of_digits {cs : List Char} (digits : ∀ c ∈ cs, isDigit c = true) :
    readInt? cs = (readNat? cs).map Int.ofNat := by
  unfold readInt?
  split
  · cases digits '-' (by simp)
  · cases digits '+' (by simp)
  · rfl

theorem readInt?_natDigits (n : Nat) : readInt? (natDigits n) = some (n : Int) := by
  rw [readInt?_of_digits fun _ mem => isDigit_of_mem_natDigits mem, readNat?_natDigits]
  rfl

/-- **Reading gives back the integer** that was written. -/
theorem readInt?_intDigits (n : Int) : readInt? (intDigits n) = some n := by
  cases n with
  | ofNat n => exact readInt?_natDigits n
  | negSucc n =>
    rw [intDigits, readInt?, readNat?_natDigits]
    rfl

theorem readInt?_intText (n : Int) : readInt? (intText n).toList = some n := by
  rw [intText, String.toList_ofList, readInt?_intDigits]

theorem intText_inj {m n : Int} : intText m = intText n ↔ m = n := by
  constructor
  · intro same
    have read : readInt? (intText m).toList = readInt? (intText n).toList := by rw [same]
    rw [readInt?_intText, readInt?_intText] at read
    exact Option.some.inj read
  · rintro rfl
    rfl

theorem intText_ne_empty (n : Int) : intText n ≠ "" := by
  intro empty
  have read := readInt?_intText n
  rw [empty] at read
  cases read

/-! ## Blanks and case -/

theorem mem_intDigits {n : Int} {c : Char} (h : c ∈ intDigits n) : c = '-' ∨ isDigit c = true := by
  cases n with
  | ofNat n => exact .inr (isDigit_of_mem_natDigits h)
  | negSucc n =>
    rcases List.mem_cons.1 h with sign | digit
    · exact .inl sign
    · exact .inr (isDigit_of_mem_natDigits digit)

theorem isBlank_of_isDigit {c : Char} (h : isDigit c = true) : isBlank c = false := by
  obtain ⟨lower, upper⟩ := toNat_of_isDigit h
  simp only [isBlank, Bool.or_eq_false_iff, Bool.and_eq_false_iff, beq_eq_false_iff_ne,
    decide_eq_false_iff_not]
  omega

theorem isBlank_of_mem_intDigits {n : Int} {c : Char} (h : c ∈ intDigits n) :
    isBlank c = false := by
  rcases mem_intDigits h with rfl | digit
  · rfl
  · exact isBlank_of_isDigit digit

theorem trim_intDigits (n : Int) : trim (intText n).toList = (intText n).toList := by
  rw [intText, String.toList_ofList]
  exact trim_of_all_not_blank fun _ mem => isBlank_of_mem_intDigits mem

/-- A digit is no letter. -/
theorem lowerChar_of_isDigit {c : Char} (h : isDigit c = true) : c ≠ 'Σ' ∧ lowerChar c = [c] := by
  obtain ⟨lower, upper⟩ := toNat_of_isDigit h
  have before : ¬ 'A' ≤ c := by
    intro le
    have : 0x41 ≤ c.toNat := le
    omega
  constructor
  · rintro rfl
    exact absurd upper (by decide)
  · rw [lowerChar, if_pos (by omega), asciiLowerChar, if_neg (by simp [before])]

/-- Signs and digits are their own lower case, whatever stands around them. -/
theorem lowerFrom_of_signs_digits {cs : List Char} (h : ∀ c ∈ cs, c = '-' ∨ isDigit c = true)
    (before : List Char) : lowerFrom before cs = cs := by
  induction cs generalizing before with
  | nil => rfl
  | cons c cs ih =>
    obtain ⟨first, rest⟩ := List.forall_mem_cons.1 h
    have ascii : c ≠ 'Σ' ∧ lowerChar c = [c] := by
      rcases first with rfl | digit
      · decide
      · exact lowerChar_of_isDigit digit
    rw [lowerFrom, if_neg ascii.1, ascii.2, ih rest]
    rfl

theorem lower_intText (n : Int) : lower (intText n) = intText n := by
  rw [lower, intText, String.toList_ofList,
    lowerFrom_of_signs_digits fun _ mem => mem_intDigits mem]

end RecordQuery
