import RecordQuery.Number.Power
import RecordQuery.Text.Digit

/-!
# Integers as text, and of fixed width

* `readInt?` reads an optional sign and at least one digit, `readIndex?` a position in a list;
* `int16?`, `int32?`, `int64?` fit an integer into a width, and refuse one that is out of range.
  `int64?_eq_some` and its companions say that what they give is the integer they were given.
-/

namespace RecordQuery

open Text

/-- Reads one or more digits and nothing else. -/
def readNat? (cs : List Char) : Option Nat :=
  if !cs.isEmpty && cs.all isDigit then some (digitsValue cs) else none

/-- Reads an optional sign and one or more digits. -/
def readInt? : List Char → Option Int
  | '-' :: cs => (readNat? cs).map fun n => -(n : Int)
  | '+' :: cs => (readNat? cs).map Int.ofNat
  | cs => (readNat? cs).map Int.ofNat

/-- Reads a natural number below `2 ^ bits`, with an optional plus sign. -/
def readUnsigned? (bits : Nat) (cs : List Char) : Option Nat :=
  let digits := match cs with
    | '+' :: rest => rest
    | _ => cs
  (readNat? digits).filter (· < 2 ^ bits)

/-- A position in a list, read from a path segment. -/
def readIndex? (segment : String) : Option Nat := readUnsigned? 64 segment.toList

/-- An integer in decimal digits, with a minus sign where it is negative. -/
def intDigits : Int → List Char
  | .ofNat n => natDigits n
  | .negSucc n => '-' :: natDigits (n + 1)

/-- An integer as a text. -/
def intText (n : Int) : String := String.ofList (intDigits n)

/-- The integer in 16 bits, if it fits. -/
def int16? (n : Int) : Option Int16 :=
  if -0x8000 ≤ n ∧ n < 0x8000 then some (Int16.ofInt n) else none

/-- The integer in 32 bits, if it fits. -/
def int32? (n : Int) : Option Int32 :=
  if -0x80000000 ≤ n ∧ n < 0x80000000 then some (Int32.ofInt n) else none

/-- The integer in 64 bits, if it fits. -/
def int64? (n : Int) : Option Int64 :=
  if -0x8000000000000000 ≤ n ∧ n < 0x8000000000000000 then some (Int64.ofInt n) else none

theorem int16?_eq_some {n : Int} {v : Int16} : int16? n = some v ↔ v.toInt = n := by
  constructor
  · intro h
    unfold int16? at h
    split at h
    · next hn =>
      obtain rfl := Option.some.inj h
      exact Int16.toInt_ofInt_of_le (by omega) (by omega)
    · cases h
  · rintro rfl
    have lower := v.le_toInt
    have upper := v.toInt_lt
    rw [int16?, if_pos ⟨by omega, by omega⟩, Int16.ofInt_toInt]

theorem int32?_eq_some {n : Int} {v : Int32} : int32? n = some v ↔ v.toInt = n := by
  constructor
  · intro h
    unfold int32? at h
    split at h
    · next hn =>
      obtain rfl := Option.some.inj h
      exact Int32.toInt_ofInt_of_le (by omega) (by omega)
    · cases h
  · rintro rfl
    have lower := v.le_toInt
    have upper := v.toInt_lt
    rw [int32?, if_pos ⟨by omega, by omega⟩, Int32.ofInt_toInt]

theorem int64?_eq_some {n : Int} {v : Int64} : int64? n = some v ↔ v.toInt = n := by
  constructor
  · intro h
    unfold int64? at h
    split at h
    · next hn =>
      obtain rfl := Option.some.inj h
      exact Int64.toInt_ofInt_of_le (by omega) (by omega)
    · cases h
  · rintro rfl
    have lower := v.le_toInt
    have upper := v.toInt_lt
    rw [int64?, if_pos ⟨by omega, by omega⟩, Int64.ofInt_toInt]

end RecordQuery
