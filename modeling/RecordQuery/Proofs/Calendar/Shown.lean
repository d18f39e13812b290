import RecordQuery.Proofs.Calendar.Canonical

/-!
# Times as their texts show them

A leap second is written as a second of 60 behind a second of 59. Behind any other second the text
is that of the second after it, so that this is the time that the text gives back.

* `LocalDateTime.carried`: the time that the text of a time shows;
* `LocalDateTime.carried_eq_self_iff`: regular times are shown as they are, and no others;
* `LocalDateTime.display_carried` and `LocalDateTime.canonical_carried`: the texts stay the same;
* `OffsetDateTime.carried`: what a clock shows that is ahead by whole minutes.
-/

namespace RecordQuery

/-! ## Times on the wall -/

namespace LocalDateTime

variable {t u : LocalDateTime} {seconds : Int}

instance : Decidable t.Regular := inferInstanceAs (Decidable (_ ∨ _))

/-- The time that the text of a time shows: a leap second behind another second than 59 is the
second after it. -/
def carried (t : LocalDateTime) : LocalDateTime :=
  if h : t.Regular then t
  else
    { date := t.date
      second := t.second + 1
      nano := t.nano - nanosPerSecond
      second_lt := by
        have lt := t.second_lt
        unfold Regular at h
        unfold secondsPerDay at *
        omega
      nano_lt := Nat.lt_of_le_of_lt (Nat.sub_le _ _) t.nano_lt }

/-- Either nothing is carried, or a whole second is. -/
theorem carried_cases (t : LocalDateTime) :
    t.Regular ∧ t.carried = t ∨
      nanosPerSecond ≤ t.nano ∧ t.second % 60 ≠ 59 ∧ t.carried.date = t.date ∧
        t.carried.second = t.second + 1 ∧ t.carried.nano = t.nano - nanosPerSecond := by
  by_cases h : t.Regular
  · exact .inl ⟨h, dif_pos h⟩
  · rw [carried, dif_neg h]
    obtain ⟨late, other⟩ := not_or.1 h
    exact .inr ⟨Nat.le_of_not_lt late, other, rfl, rfl, rfl⟩

theorem regular_carried (t : LocalDateTime) : t.carried.Regular := by
  rcases t.carried_cases with ⟨regular, same⟩ | ⟨-, -, -, -, nano⟩
  · rwa [same]
  · have lt := t.nano_lt
    exact .inl (by omega)

/-- **Regular times are shown as they are**, and no others. -/
theorem carried_eq_self_iff : t.carried = t ↔ t.Regular :=
  ⟨fun same => same ▸ t.regular_carried, fun regular => dif_pos regular⟩

theorem date_carried (t : LocalDateTime) : t.carried.date = t.date := by
  rcases t.carried_cases with ⟨-, same⟩ | ⟨-, -, date, -⟩
  · rw [same]
  · exact date

theorem clockDigits_carried (t : LocalDateTime) : t.carried.clockDigits = t.clockDigits := by
  rcases t.carried_cases with ⟨-, same⟩ | ⟨late, other, -, second, nano⟩
  · rw [same]
  · have lt := t.nano_lt
    have hour : t.carried.hour = t.hour := by
      unfold LocalDateTime.hour
      omega
    have minute : t.carried.minute = t.minute := by
      unfold LocalDateTime.minute
      omega
    have shown : t.carried.shownSecond = t.shownSecond := by
      unfold shownSecond
      unfold nanosPerSecond at *
      omega
    rw [clockDigits, hour, minute, shown, clockDigits]

theorem shownNano_carried (t : LocalDateTime) : t.carried.shownNano = t.shownNano := by
  rcases t.carried_cases with ⟨-, same⟩ | ⟨late, -, -, -, nano⟩
  · rw [same]
  · rw [shownNano, nano, shownNano, ← Nat.mod_eq_sub_mod late]

theorem displayDigits_carried (t : LocalDateTime) : t.carried.displayDigits = t.displayDigits := by
  rw [displayDigits, date_carried, clockDigits_carried, fractionDigits, shownNano_carried]
  rfl

theorem display_carried (t : LocalDateTime) : t.carried.display = t.display :=
  congrArg String.ofList t.displayDigits_carried

/-- The text in universal time is that of the time that is shown. -/
theorem canonical_carried (t : LocalDateTime) : t.carried.canonical = t.canonical := by
  rw [canonical, stampDigits, date_carried, clockDigits_carried, milliDigits, shownNano_carried]
  rfl

/-- A clock that is moved by whole minutes is regular only if it was before. -/
theorem Regular.of_shift? (whole : seconds % 60 = 0) (moved : t.shift? seconds = some u)
    (h : u.Regular) : t.Regular := by
  have second := (shift?_cases moved).2
  obtain ⟨day, -, rfl⟩ := Option.map_eq_some_iff.1 moved
  refine h.imp_right fun last => ?_
  unfold secondsPerDay at *
  omega

/-- A clock that is moved by whole minutes carries where it did before. -/
theorem shift?_carried (whole : seconds % 60 = 0) (moved : t.shift? seconds = some u) :
    t.carried.shift? seconds = some u.carried := by
  rcases t.carried_cases with ⟨regular, same⟩ | ⟨late, other, date, second, nano⟩
  · rw [same, carried_eq_self_iff.2 (regular.shift? whole moved), moved]
  · have irregular : ¬ u.Regular := fun regular =>
      (Regular.of_shift? whole moved regular).elim (Nat.not_lt.2 late) other
    obtain ⟨-, -, date', second', nano'⟩ := u.carried_cases.resolve_left fun h => irregular h.1
    obtain ⟨day, found, rfl⟩ := Option.map_eq_some_iff.1 moved
    -- the second is not the last of its minute, so the second after it is on the same day
    have before : (t.carried.second : Int) + seconds < 0 ↔ (t.second : Int) + seconds < 0 := by
      omega
    have inside : (t.carried.second : Int) + seconds < secondsPerDay ↔
        (t.second : Int) + seconds < secondsPerDay := by
      unfold secondsPerDay
      omega
    have next : (((t.carried.second : Int) + seconds) % secondsPerDay).toNat =
        (((t.second : Int) + seconds) % secondsPerDay).toNat + 1 := by
      unfold secondsPerDay
      omega
    simp only [shift?, before, inside, date]
    rw [found]
    refine congrArg some (eq_of_parts date'.symm ?_ (nano.trans nano'.symm))
    exact next.trans second'.symm

end LocalDateTime

/-! ## Clocks -/

namespace OffsetDateTime

variable {t : OffsetDateTime}

/-- What the text of a clock shows that is ahead by whole minutes. -/
def carried (t : OffsetDateTime) (whole : t.offset % 60 = 0) : OffsetDateTime where
  wall := t.wall.carried
  offset := t.offset
  instant := t.instant.carried
  instant_eq := LocalDateTime.shift?_carried (by omega) t.instant_eq

theorem carried_eq_self_iff (whole : t.offset % 60 = 0) :
    t.carried whole = t ↔ t.wall.Regular :=
  ⟨fun same => LocalDateTime.carried_eq_self_iff.1 (congrArg wall same),
    fun regular => eq_of_wall (LocalDateTime.carried_eq_self_iff.2 regular) rfl⟩

theorem display_carried (whole : t.offset % 60 = 0) : (t.carried whole).display = t.display := by
  rw [display, displayDigits, carried, LocalDateTime.displayDigits_carried]
  rfl

theorem canonical_carried (whole : t.offset % 60 = 0) :
    (t.carried whole).canonical = t.canonical :=
  t.instant.canonical_carried

end OffsetDateTime

end RecordQuery
