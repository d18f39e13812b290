import RecordQuery.Calendar.DateTime

/-!
# Clocks that agree

The place of a time in the order tells times apart. Two clocks with one offset that show universal
time alike agree on the wall.

* `LocalDateTime.position_inj` and `LocalDateTime.compare_eq_eq`: places tell times apart;
* `Date.next?_inj` and `Date.previous?_inj`: a day has one day after and one day before it;
* `LocalDateTime.shift?_inj`: moving a clock loses nothing;
* `OffsetDateTime.eq_iff_compare`: clocks that show one instant at one offset are the same.
-/

namespace RecordQuery

/-! ## Days -/

theorem daysInMonth_le (year : Int) (month : Nat) : daysInMonth year month ≤ 31 := by
  unfold daysInMonth
  split
  · split <;> decide
  all_goals decide

namespace Date

theorem eq_of_parts {d e : Date} (year : d.year = e.year) (month : d.month = e.month)
    (day : d.day = e.day) : d = e := by
  cases d
  cases e
  cases year
  cases month
  cases day
  rfl

theorem day_le (d : Date) : d.day ≤ 31 :=
  Nat.le_trans d.valid.day_le (daysInMonth_le _ _)

/-- Every month has room in the order of days. -/
theorem position_inj {d e : Date} (h : d.position = e.position) : d = e := by
  unfold position at h
  have months := d.valid.month_le
  have months' := e.valid.month_le
  have days := d.day_le
  have days' := e.day_le
  exact eq_of_parts (by omega) (by omega) (by omega)

theorem parts_of_ofParts? {year : Int} {month day : Nat} {d : Date}
    (h : ofParts? year month day = some d) : d.year = year ∧ d.month = month ∧ d.day = day := by
  unfold ofParts? at h
  split at h
  · obtain rfl := Option.some.inj h
    exact ⟨rfl, rfl, rfl⟩
  · cases h

/-- What a day and the day after it have to do with each other. -/
theorem next?_cases {d x : Date} (h : d.next? = some x) :
    (x.year = d.year ∧ x.month = d.month ∧ x.day = d.day + 1) ∨
      (d.day = daysInMonth d.year d.month ∧
        (x.year = d.year ∧ x.month = d.month + 1 ∨
          d.month = 12 ∧ x.year = d.year + 1 ∧ x.month = 1) ∧ x.day = 1) := by
  have days := d.valid.day_le
  have months := d.valid.month_le
  unfold next? at h
  split at h
  · exact .inl (parts_of_ofParts? h)
  · split at h
    · obtain ⟨year, month, day⟩ := parts_of_ofParts? h
      exact .inr ⟨by omega, .inl ⟨year, month⟩, day⟩
    · obtain ⟨year, month, day⟩ := parts_of_ofParts? h
      exact .inr ⟨by omega, .inr ⟨by omega, year, month⟩, day⟩

theorem next?_inj {d e x : Date} (hd : d.next? = some x) (he : e.next? = some x) : d = e := by
  have first := d.valid.one_le_day
  have first' := e.valid.one_le_day
  have month := d.valid.one_le_month
  have month' := e.valid.one_le_month
  rcases next?_cases hd with ⟨y, m, day⟩ | ⟨last, y, day⟩
  · rcases next?_cases he with ⟨y', m', day'⟩ | ⟨-, -, day'⟩
    · exact eq_of_parts (by omega) (by omega) (by omega)
    · omega
  · rcases next?_cases he with ⟨-, -, day'⟩ | ⟨last', y', day'⟩
    · omega
    · have year : d.year = e.year := by omega
      have month : d.month = e.month := by omega
      rw [year, month, ← last'] at last
      exact eq_of_parts year month last

/-- What a day and the day before it have to do with each other. -/
theorem previous?_cases {d x : Date} (h : d.previous? = some x) :
    (x.year = d.year ∧ x.month = d.month ∧ d.day = x.day + 1) ∨
      (x.day = daysInMonth x.year x.month ∧
        (x.year = d.year ∧ d.month = x.month + 1 ∨
          x.month = 12 ∧ d.year = x.year + 1 ∧ d.month = 1) ∧ d.day = 1) := by
  have day := d.valid.one_le_day
  have month := d.valid.one_le_month
  unfold previous? at h
  split at h
  · obtain ⟨y, m, day⟩ := parts_of_ofParts? h
    exact .inl ⟨y, m, by omega⟩
  · split at h
    · obtain ⟨y, m, last⟩ := parts_of_ofParts? h
      exact .inr ⟨by rw [last, y, m], .inl ⟨y, by omega⟩, by omega⟩
    · obtain ⟨y, m, last⟩ := parts_of_ofParts? h
      exact .inr ⟨by rw [last, m]; rfl, .inr ⟨m, by omega, by omega⟩, by omega⟩

theorem previous?_inj {d e x : Date} (hd : d.previous? = some x) (he : e.previous? = some x) :
    d = e := by
  have days := d.valid.day_le
  have days' := e.valid.day_le
  have months := d.valid.month_le
  have months' := e.valid.month_le
  rcases previous?_cases hd with ⟨y, m, day⟩ | ⟨last, y, day⟩
  · rcases previous?_cases he with ⟨y', m', day'⟩ | ⟨last', -, -⟩
    · exact eq_of_parts (by omega) (by omega) (by omega)
    · rw [y, m] at last'
      omega
  · rcases previous?_cases he with ⟨y', m', day'⟩ | ⟨-, y', day'⟩
    · rw [y', m'] at last
      omega
    · exact eq_of_parts (by omega) (by omega) (by omega)

end Date

/-! ## Times -/

namespace LocalDateTime

theorem eq_of_parts {s t : LocalDateTime} (date : s.date = t.date) (second : s.second = t.second)
    (nano : s.nano = t.nano) : s = t := by
  cases s
  cases t
  cases date
  cases second
  cases nano
  rfl

theorem position_inj {s t : LocalDateTime} (h : s.position = t.position) : s = t := by
  have second := s.second_lt
  have second' := t.second_lt
  have nano := s.nano_lt
  have nano' := t.nano_lt
  unfold position at h
  unfold secondsPerDay nanosPerSecond at *
  exact eq_of_parts (Date.position_inj (by omega)) (by omega) (by omega)

/-- Times compare equal only if they are the same. -/
theorem compare_eq_eq {s t : LocalDateTime} : s.compare t = .eq ↔ s = t := by
  rw [compare, Int.compare_eq_eq]
  exact ⟨position_inj, fun same => same ▸ rfl⟩

/-- Clocks that are moved alike and then agree have agreed before. -/
theorem shift?_inj {s t moved : LocalDateTime} {seconds : Int} (hs : s.shift? seconds = some moved)
    (ht : t.shift? seconds = some moved) : s = t := by
  obtain ⟨day, found, rfl⟩ := Option.map_eq_some_iff.1 hs
  obtain ⟨day', found', same⟩ := Option.map_eq_some_iff.1 ht
  have date : day' = day := congrArg LocalDateTime.date same
  have time : ((t.second + seconds) % (secondsPerDay : Int)).toNat =
      ((s.second + seconds) % (secondsPerDay : Int)).toNat := congrArg LocalDateTime.second same
  have nano : t.nano = s.nano := (congrArg LocalDateTime.nano same :)
  have second : s.second = t.second := by
    have := s.second_lt
    have := t.second_lt
    unfold secondsPerDay at *
    omega
  rw [← second, date] at found'
  refine eq_of_parts ?_ second nano.symm
  split at found
  · next before =>
    rw [if_pos before] at found'
    exact Date.previous?_inj found found'
  · next before =>
    rw [if_neg before] at found'
    split at found
    · next inside =>
      rw [if_pos inside] at found'
      exact Option.some.inj (found.trans found'.symm)
    · next inside =>
      rw [if_neg inside] at found'
      exact Date.next?_inj found found'

end LocalDateTime

namespace OffsetDateTime

/-- An instant and an offset make a clock. -/
theorem eq_of_instant {s t : OffsetDateTime} (instant : s.instant = t.instant)
    (offset : s.offset = t.offset) : s = t := by
  have clock := s.instant_eq
  rw [instant, offset] at clock
  have wall : s.wall = t.wall := LocalDateTime.shift?_inj clock t.instant_eq
  cases s
  cases t
  cases instant
  cases offset
  cases wall
  rfl

/-- A time on the wall and an offset make a clock. -/
theorem eq_of_wall {s t : OffsetDateTime} (wall : s.wall = t.wall) (offset : s.offset = t.offset) :
    s = t := by
  have clock := s.instant_eq
  rw [wall, offset, t.instant_eq] at clock
  exact eq_of_instant (Option.some.inj clock).symm offset

/-- Clocks that show one instant at one offset are the same. -/
theorem eq_iff_compare {s t : OffsetDateTime} :
    s = t ↔ s.instant.compare t.instant = .eq ∧ s.offset = t.offset := by
  rw [LocalDateTime.compare_eq_eq]
  constructor
  · rintro rfl
    exact ⟨rfl, rfl⟩
  · rintro ⟨instant, offset⟩
    exact eq_of_instant instant offset

end OffsetDateTime

end RecordQuery
