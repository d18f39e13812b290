import RecordQuery.Calendar.Date

/-!
# Dates with a time

* `LocalDateTime` is what a clock on the wall shows, without a place. A leap second is written as
  a second of 59 whose nanoseconds run on past one second;
* `OffsetDateTime` is a clock on the wall together with its distance from universal time, so it
  denotes an instant: `OffsetDateTime.instant`.
-/

namespace RecordQuery

def secondsPerDay : Nat := 86400

/-- Nanoseconds of a second; in a leap second they reach twice as far. -/
def nanosPerSecond : Nat := 1000000000

/-- A date and a time of day. -/
structure LocalDateTime where
  date : Date
  /-- Seconds since midnight. -/
  second : Nat
  nano : Nat
  second_lt : second < secondsPerDay
  nano_lt : nano < 2 * nanosPerSecond
  deriving DecidableEq

namespace LocalDateTime

/-- A date and a time from its parts. A second of 60 is the leap second. -/
def ofParts? (date : Date) (hour minute second nano : Nat) : Option LocalDateTime :=
  let (second, nano) := if second = 60 then (59, nano + nanosPerSecond) else (second, nano)
  let total := (hour * 60 + minute) * 60 + second
  if h : hour < 24 ∧ minute < 60 ∧ second < 60 ∧ total < secondsPerDay
      ∧ nano < 2 * nanosPerSecond then
    some ⟨date, total, nano, h.2.2.2.1, h.2.2.2.2⟩
  else none

/-- The start of a day. -/
def midnight (date : Date) : LocalDateTime := ⟨date, 0, 0, by decide, by decide⟩

def hour (t : LocalDateTime) : Nat := t.second / 3600

def minute (t : LocalDateTime) : Nat := t.second / 60 % 60

/-- The second as clocks show it: 60 in a leap second. -/
def shownSecond (t : LocalDateTime) : Nat := t.second % 60 + t.nano / nanosPerSecond

/-- The nanoseconds as clocks show them. -/
def shownNano (t : LocalDateTime) : Nat := t.nano % nanosPerSecond

/-- Whether the time is exactly the start of the day. -/
def isMidnight (t : LocalDateTime) : Bool := t.second == 0 && t.nano == 0

/-- The time on a clock that is `seconds` ahead, up to a day in either direction. -/
def shift? (t : LocalDateTime) (seconds : Int) : Option LocalDateTime :=
  let total := t.second + seconds
  let day :=
    if total < 0 then t.date.previous?
    else if total < secondsPerDay then some t.date
    else t.date.next?
  day.map fun date =>
    ⟨date, (total % secondsPerDay).toNat, t.nano, by
      have : (0 : Int) ≤ total % secondsPerDay := Int.emod_nonneg _ (by decide)
      have : total % secondsPerDay < secondsPerDay := Int.emod_lt_of_pos _ (by decide)
      omega, t.nano_lt⟩

/-- A number that grows with the time. -/
def position (t : LocalDateTime) : Int :=
  (t.date.position * secondsPerDay + t.second) * (2 * nanosPerSecond) + t.nano

/-- Order of time. -/
def compare (a b : LocalDateTime) : Ordering := Ord.compare a.position b.position

end LocalDateTime

/-- A clock on the wall and its distance from universal time. -/
structure OffsetDateTime where
  wall : LocalDateTime
  /-- Seconds by which the clock is ahead of universal time. -/
  offset : Int
  /-- The time on a clock that shows universal time. -/
  instant : LocalDateTime
  instant_eq : wall.shift? (-offset) = some instant
  deriving DecidableEq

namespace OffsetDateTime

/-- A clock on the wall with an offset of less than a day, if universal time is in range. -/
def ofWall? (wall : LocalDateTime) (offset : Int) : Option OffsetDateTime :=
  if offset.natAbs < secondsPerDay then
    match h : wall.shift? (-offset) with
    | some instant => some ⟨wall, offset, instant, h⟩
    | none => none
  else none

/-- A clock that shows universal time. -/
def ofUniversal (t : LocalDateTime) : OffsetDateTime where
  wall := t
  offset := 0
  instant := t
  instant_eq := by
    have h := t.second_lt
    have h0 : ¬ ((t.second : Int) + -0 < 0) := by omega
    have h1 : (t.second : Int) + -0 < secondsPerDay := by omega
    have h2 : (((t.second : Int) + -0) % (secondsPerDay : Int)).toNat = t.second := by
      rw [Int.neg_zero, Int.add_zero, Int.emod_eq_of_lt (by omega) (by omega)]
      simp
    simp only [LocalDateTime.shift?, h0, h1, if_true, if_false, Option.map_some, h2]

end OffsetDateTime

end RecordQuery
