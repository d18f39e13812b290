import RecordQuery.Proofs.Calendar.Clocks

/-!
# Clocks that run alike

The neighbours of a day are next to it in the order of days. So two clocks that are moved by the
same distance show days in the order of their times, and clocks with one offset show days in the
order of their instants.

* `Date.position_lt_next?`, `Date.next?_le`, `Date.previous?_lt_position` and `Date.le_previous?`:
  no day lies between neighbours;
* `LocalDateTime.date_le_of_compare`: the day of an earlier time is not later;
* `LocalDateTime.shift?_cases` and `LocalDateTime.shift?_lt`: moved clocks keep the order of days;
* `OffsetDateTime.date_le_of_offset`: clocks with one offset.
-/

namespace RecordQuery

/-! ## Neighbours of a day -/

namespace Date

variable {d e x : Date}

/-- The order of days is that of the calendar. -/
theorem position_le_iff : d.position ≤ e.position ↔
    d.year < e.year ∨ d.year = e.year ∧
      (d.month < e.month ∨ d.month = e.month ∧ d.day ≤ e.day) := by
  have months := d.valid.month_le
  have months' := e.valid.month_le
  have days := d.day_le
  have days' := e.day_le
  unfold position
  omega

theorem position_lt_next? (h : d.next? = some x) : d.position < x.position := by
  have days := d.day_le
  have months := d.valid.month_le
  unfold position
  rcases next?_cases h with ⟨year, month, day⟩ | ⟨-, year, day⟩ <;> omega

/-- No day lies between a day and the one after it. -/
theorem next?_le (h : d.next? = some x) (lt : d.position < e.position) :
    x.position ≤ e.position := by
  have first := e.valid.one_le_day
  have firstMonth := e.valid.one_le_month
  have within := e.valid.day_le
  have months := e.valid.month_le
  have before := position_le_iff.1 (Int.le_of_lt lt)
  have apart : ¬ e.position ≤ d.position := Int.not_le.2 lt
  rw [position_le_iff] at apart ⊢
  rcases next?_cases h with ⟨year, month, day⟩ | ⟨last, year, day⟩
  · omega
  · by_cases same : e.year = d.year ∧ e.month = d.month
    · rw [same.1, same.2, ← last] at within
      omega
    · omega

theorem previous?_lt_position (h : d.previous? = some x) : x.position < d.position := by
  have days := x.day_le
  have months := x.valid.month_le
  unfold position
  rcases previous?_cases h with ⟨year, month, day⟩ | ⟨-, year, day⟩ <;> omega

/-- No day lies between a day and the one before it. -/
theorem le_previous? (h : d.previous? = some x) (lt : e.position < d.position) :
    e.position ≤ x.position := by
  have first := e.valid.one_le_day
  have firstMonth := e.valid.one_le_month
  have within := e.valid.day_le
  have months := e.valid.month_le
  have before := position_le_iff.1 (Int.le_of_lt lt)
  have apart : ¬ d.position ≤ e.position := Int.not_le.2 lt
  rw [position_le_iff] at apart ⊢
  rcases previous?_cases h with ⟨year, month, day⟩ | ⟨last, year, day⟩
  · omega
  · by_cases same : e.year = x.year ∧ e.month = x.month
    · rw [same.1, same.2, ← last] at within
      omega
    · omega

end Date

/-! ## Times -/

namespace LocalDateTime

variable {s t s' t' : LocalDateTime} {seconds : Int}

/-- An earlier day is earlier, and an earlier second of one day. -/
theorem position_lt_of_parts (lt : s.date.position < t.date.position ∨
    s.date.position = t.date.position ∧ s.second < t.second) : s.position < t.position := by
  have second := s.second_lt
  have nano := s.nano_lt
  unfold position
  unfold secondsPerDay nanosPerSecond at *
  omega

/-- The day of an earlier time is not later. -/
theorem date_le_of_compare (le : (s.compare t).isLE = true) :
    s.date.position ≤ t.date.position := by
  rw [compare, Std.isLE_compare] at le
  exact Int.not_lt.1 fun later => Int.not_lt.2 le (position_lt_of_parts (.inl later))

/-- Which day a moved clock shows, and which second. -/
theorem shift?_cases (h : s.shift? seconds = some s') :
    (s.second + seconds < 0 ∧ s.date.previous? = some s'.date ∨
      (0 ≤ s.second + seconds ∧ s.second + seconds < secondsPerDay) ∧ s.date = s'.date ∨
      (secondsPerDay : Int) ≤ s.second + seconds ∧ s.date.next? = some s'.date) ∧
    (s'.second : Int) = (s.second + seconds) % secondsPerDay := by
  obtain ⟨day, found, rfl⟩ := Option.map_eq_some_iff.1 h
  have positive : (0 : Int) ≤ (s.second + seconds) % secondsPerDay :=
    Int.emod_nonneg _ (by decide)
  refine ⟨?_, Int.toNat_of_nonneg positive⟩
  split at found
  · next before => exact .inl ⟨before, found⟩
  · next before =>
    split at found
    · next inside => exact .inr (.inl ⟨⟨Int.not_lt.1 before, inside⟩, Option.some.inj found⟩)
    · next inside => exact .inr (.inr ⟨Int.not_lt.1 inside, found⟩)

/-- **Moved clocks keep the order of days**: the clock of the later day shows the later time. -/
theorem shift?_lt (hs : s.shift? seconds = some s') (ht : t.shift? seconds = some t')
    (lt : s.date.position < t.date.position) : s'.position < t'.position := by
  have second := s.second_lt
  have second' := t.second_lt
  obtain ⟨day, time⟩ := shift?_cases hs
  obtain ⟨day', time'⟩ := shift?_cases ht
  refine position_lt_of_parts ?_
  unfold secondsPerDay at *
  rcases day with ⟨before, found⟩ | ⟨inside, same⟩ | ⟨after, found⟩
  · have less := Date.previous?_lt_position found
    rcases day' with ⟨-, found'⟩ | ⟨-, same'⟩ | ⟨-, found'⟩
    · have near := Date.le_previous? found' lt
      omega
    · rw [same'] at lt
      omega
    · have more := Date.position_lt_next? found'
      omega
  · rw [same] at lt
    rcases day' with ⟨before', found'⟩ | ⟨-, same'⟩ | ⟨-, found'⟩
    · have near := Date.le_previous? found' lt
      omega
    · rw [same'] at lt
      omega
    · have more := Date.position_lt_next? found'
      omega
  · have near := Date.next?_le found lt
    rcases day' with ⟨before', -⟩ | ⟨inside', same'⟩ | ⟨-, found'⟩
    · omega
    · rw [same'] at near
      omega
    · have more := Date.position_lt_next? found'
      omega

end LocalDateTime

namespace OffsetDateTime

/-- **Clocks with one offset** show days in the order of their instants. -/
theorem date_le_of_offset {s t : OffsetDateTime} (offset : s.offset = t.offset)
    (le : (s.instant.compare t.instant).isLE = true) :
    s.wall.date.position ≤ t.wall.date.position := by
  rw [LocalDateTime.compare, Std.isLE_compare] at le
  have moved : t.wall.shift? (-s.offset) = some t.instant := offset ▸ t.instant_eq
  exact Int.not_lt.1 fun later => Int.not_lt.2 le (LocalDateTime.shift?_lt moved s.instant_eq later)

end OffsetDateTime

end RecordQuery
