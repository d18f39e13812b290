import RecordQuery.Calendar.Writer
import RecordQuery.Proofs.Calendar.Clocks
import RecordQuery.Proofs.Text.Digits

/-!
# Dates told apart by their texts

A date is written from parts of fixed widths, apart from the year in front and the fraction at the
end. The text is taken to pieces from there, and every piece is read back.

* `LocalDateTime.Regular`: a leap second follows only a second of 59. Elsewhere its text is that of
  the next second;
* `LocalDateTime.displayDigits_inj`: texts tell regular times apart;
* `OffsetDateTime.Regular`: the offset is a whole number of minutes and less than a day, which is
  what its text can say;
* `OffsetDateTime.displayDigits_inj`: texts tell regular clocks apart.
-/

namespace RecordQuery

open Text

theorem notMem_padDigits {width n : Nat} {c : Char} (h : isDigit c = false) :
    c ∉ padDigits width n := fun mem =>
  ne_of_isDigit (isDigit_of_mem_padDigits mem) h rfl

/-! ## Days -/

/-- A year is read back with its sign. -/
theorem readInt?_yearDigits (year : Int) : readInt? (yearDigits year) = some year := by
  have read (n : Nat) : readNat? (padDigits 4 n) = some n := readNat?_padDigits (by decide) n
  unfold yearDigits
  split
  · next inside =>
    rw [readInt?_of_digits fun _ mem => isDigit_of_mem_padDigits mem, read]
    exact congrArg some (Int.toNat_of_nonneg inside.1)
  · split
    · rw [readInt?, read]
      exact congrArg some (show -(year.natAbs : Int) = year by omega)
    · rw [readInt?, read]
      exact congrArg some (show (year.natAbs : Int) = year by omega)

theorem mem_yearDigits {year : Int} {c : Char} (h : c ∈ yearDigits year) :
    c = '-' ∨ c = '+' ∨ isDigit c = true := by
  unfold yearDigits at h
  split at h
  · exact .inr (.inr (isDigit_of_mem_padDigits h))
  · split at h
    · rcases List.mem_cons.1 h with sign | digit
      · exact .inl sign
      · exact .inr (.inr (isDigit_of_mem_padDigits digit))
    · rcases List.mem_cons.1 h with sign | digit
      · exact .inr (.inl sign)
      · exact .inr (.inr (isDigit_of_mem_padDigits digit))

namespace Date

theorem length_month (d : Date) : (padDigits 2 d.month).length = 2 :=
  length_padDigits (by decide) (Nat.lt_of_le_of_lt d.valid.month_le (by decide))

theorem length_day (d : Date) : (padDigits 2 d.day).length = 2 :=
  length_padDigits (by decide) (Nat.lt_of_le_of_lt d.day_le (by decide))

/-- The text of a day tells it from other days. -/
theorem digits_inj {d e : Date} (h : d.digits = e.digits) : d = e := by
  unfold digits at h
  obtain ⟨front, days⟩ := List.append_inj' h (by simp only [List.length_cons, length_day])
  obtain ⟨years, months⟩ := List.append_inj' front (by simp only [List.length_cons, length_month])
  have year : d.year = e.year := by
    have read := readInt?_yearDigits d.year
    rw [years, readInt?_yearDigits] at read
    exact (Option.some.inj read).symm
  exact eq_of_parts year (padDigits_inj (List.cons.inj months).2)
    (padDigits_inj (List.cons.inj days).2)

end Date

/-! ## Times -/

namespace LocalDateTime

/-- A leap second follows only a second of 59. -/
def Regular (t : LocalDateTime) : Prop := t.nano < nanosPerSecond ∨ t.second % 60 = 59

theorem shownSecond_lt (t : LocalDateTime) : t.shownSecond < 100 := by
  have nano := t.nano_lt
  unfold shownSecond
  unfold nanosPerSecond at *
  omega

theorem length_minute (t : LocalDateTime) : (padDigits 2 t.minute).length = 2 := by
  refine length_padDigits (by decide) ?_
  unfold minute
  omega

theorem length_shownSecond (t : LocalDateTime) : (padDigits 2 t.shownSecond).length = 2 :=
  length_padDigits (by decide) t.shownSecond_lt

theorem length_clockDigits (t : LocalDateTime) : t.clockDigits.length = 8 := by
  have hours : (padDigits 2 t.hour).length = 2 := by
    have second := t.second_lt
    refine length_padDigits (by decide) ?_
    unfold hour
    unfold secondsPerDay at second
    omega
  simp only [clockDigits, List.length_append, List.length_cons, hours, length_minute,
    length_shownSecond]

theorem clockDigits_inj {s t : LocalDateTime} (h : s.clockDigits = t.clockDigits) :
    s.hour = t.hour ∧ s.minute = t.minute ∧ s.shownSecond = t.shownSecond := by
  unfold clockDigits at h
  obtain ⟨front, seconds⟩ :=
    List.append_inj' h (by simp only [List.length_cons, length_shownSecond])
  obtain ⟨hours, minutes⟩ :=
    List.append_inj' front (by simp only [List.length_cons, length_minute])
  exact ⟨padDigits_inj hours, padDigits_inj (List.cons.inj minutes).2,
    padDigits_inj (List.cons.inj seconds).2⟩

/-- The nanoseconds that a fraction stands for. -/
def fractionNano (cs : List Char) : Nat := digitsValue (cs.drop 1) * 10 ^ (9 - (cs.length - 1))

theorem fractionNano_fractionDigits (t : LocalDateTime) :
    fractionNano t.fractionDigits = t.shownNano := by
  have bound : t.shownNano < 1000000000 := Nat.mod_lt _ (by decide)
  unfold fractionDigits
  dsimp only
  split
  · next zero => rw [zero]; rfl
  · split
    · next even =>
      rw [fractionNano, List.length_cons, length_padDigits (by decide) (by omega)]
      simp only [List.drop_one, List.tail_cons, digitsValue_padDigits]
      omega
    · split
      · next even =>
        rw [fractionNano, List.length_cons, length_padDigits (by decide) (by omega)]
        simp only [List.drop_one, List.tail_cons, digitsValue_padDigits]
        omega
      · rw [fractionNano, List.length_cons, length_padDigits (by decide) (by omega)]
        simp only [List.drop_one, List.tail_cons, digitsValue_padDigits]
        omega

theorem notMem_dateDigits (d : Date) : 'T' ∉ d.digits := by
  have digit : isDigit 'T' = false := rfl
  have year : 'T' ∉ yearDigits d.year := by
    intro mem
    rcases mem_yearDigits mem with sign | sign | other
    · exact absurd sign (by decide)
    · exact absurd sign (by decide)
    · exact absurd other (by decide)
  have dash : 'T' ≠ '-' := by decide
  simp only [Date.digits, List.mem_append, List.mem_cons, year, dash, notMem_padDigits digit,
    or_self, not_false_iff]

/-- **The texts of times** tell them apart. -/
theorem displayDigits_inj {s t : LocalDateTime} (hs : s.Regular) (ht : t.Regular)
    (h : s.displayDigits = t.displayDigits) : s = t := by
  unfold displayDigits at h
  rw [List.append_assoc, List.append_assoc] at h
  obtain ⟨days, times⟩ := append_cons_inj (notMem_dateDigits _) (notMem_dateDigits _) h
  obtain ⟨clocks, fractions⟩ :=
    List.append_inj times (by rw [length_clockDigits, length_clockDigits])
  obtain ⟨hours, minutes, seconds⟩ := clockDigits_inj clocks
  have nanos : s.shownNano = t.shownNano := by
    rw [← fractionNano_fractionDigits, fractions, fractionNano_fractionDigits]
  have nano := s.nano_lt
  have nano' := t.nano_lt
  unfold hour at hours
  unfold minute at minutes
  unfold shownSecond at seconds
  unfold shownNano at nanos
  unfold Regular at hs ht
  unfold nanosPerSecond at *
  exact eq_of_parts (Date.digits_inj days) (by omega) (by omega)

end LocalDateTime

/-! ## Clocks -/

namespace OffsetDateTime

/-- What the text of an offset can say: whole minutes, and less than a day. The time on the wall is
regular. -/
structure Regular (t : OffsetDateTime) : Prop where
  wall : t.wall.Regular
  minutes : t.offset % 60 = 0
  lt_day : t.offset.natAbs < secondsPerDay

theorem Regular.length_offsetDigits {t : OffsetDateTime} (h : t.Regular) :
    t.offsetDigits.length = 6 := by
  have lt := h.lt_day
  unfold secondsPerDay at lt
  have hours : (padDigits 2 ((t.offset.natAbs + 30) / 60 / 60)).length = 2 :=
    length_padDigits (by decide) (by omega)
  have minutes : (padDigits 2 ((t.offset.natAbs + 30) / 60 % 60)).length = 2 :=
    length_padDigits (by decide) (by omega)
  simp only [offsetDigits, List.length_append, List.length_cons, hours, minutes]

theorem offsetDigits_inj {s t : OffsetDateTime} (hs : s.Regular) (ht : t.Regular)
    (h : s.offsetDigits = t.offsetDigits) : s.offset = t.offset := by
  have whole := hs.minutes
  have whole' := ht.minutes
  have minutes : (padDigits 2 ((s.offset.natAbs + 30) / 60 % 60)).length =
      (padDigits 2 ((t.offset.natAbs + 30) / 60 % 60)).length := by
    rw [length_padDigits (by decide) (by omega), length_padDigits (by decide) (by omega)]
  unfold offsetDigits at h
  obtain ⟨front, back⟩ := List.append_inj' h (by simp only [List.length_cons, minutes])
  obtain ⟨signs, hours⟩ := List.cons.inj front
  have same := padDigits_inj hours
  have same' := padDigits_inj (List.cons.inj back).2
  split at signs
  · split at signs
    · omega
    · exact absurd signs (by decide)
  · split at signs
    · exact absurd signs (by decide)
    · omega

/-- **The texts of clocks** with their offsets tell them apart. -/
theorem displayDigits_inj {s t : OffsetDateTime} (hs : s.Regular) (ht : t.Regular)
    (h : s.displayDigits = t.displayDigits) : s = t := by
  unfold displayDigits at h
  obtain ⟨walls, offsets⟩ :=
    List.append_inj' h (by rw [hs.length_offsetDigits, ht.length_offsetDigits])
  exact eq_of_wall (LocalDateTime.displayDigits_inj hs.wall ht.wall walls)
    (offsetDigits_inj hs ht offsets)

end OffsetDateTime

end RecordQuery
