/-!
# Dates

Days of the Gregorian calendar, which is carried on before its introduction, with a year zero and
negative years. A date knows that it exists.

* `Date.ofParts?` is the date of a year, a month and a day;
* `Date.next?` and `Date.previous?` are its neighbours; there is none past either end of the range.
-/

namespace RecordQuery

def isLeapYear (year : Int) : Bool :=
  year % 4 == 0 && (year % 100 != 0 || year % 400 == 0)

/-- The number of days of a month, counted from 1. -/
def daysInMonth (year : Int) (month : Nat) : Nat :=
  match month with
  | 2 => if isLeapYear year then 29 else 28
  | 4 | 6 | 9 | 11 => 30
  | _ => 31

/-- The first year of the range. -/
def minYear : Int := -262143

/-- The last year of the range. -/
def maxYear : Int := 262142

/-- Which dates exist. -/
structure ValidDate (year : Int) (month day : Nat) : Prop where
  year_le : minYear ≤ year
  le_year : year ≤ maxYear
  one_le_month : 1 ≤ month
  month_le : month ≤ 12
  one_le_day : 1 ≤ day
  day_le : day ≤ daysInMonth year month

instance (year : Int) (month day : Nat) : Decidable (ValidDate year month day) :=
  if h : (minYear ≤ year ∧ year ≤ maxYear) ∧ (1 ≤ month ∧ month ≤ 12) ∧
      1 ≤ day ∧ day ≤ daysInMonth year month then
    .isTrue ⟨h.1.1, h.1.2, h.2.1.1, h.2.1.2, h.2.2.1, h.2.2.2⟩
  else .isFalse fun v => h ⟨⟨v.1, v.2⟩, ⟨v.3, v.4⟩, v.5, v.6⟩

/-- A day. -/
structure Date where
  year : Int
  month : Nat
  day : Nat
  valid : ValidDate year month day
  deriving DecidableEq

namespace Date

/-- The date of a year, a month and a day, if it exists. -/
def ofParts? (year : Int) (month day : Nat) : Option Date :=
  if h : ValidDate year month day then some ⟨year, month, day, h⟩ else none

/-- The day after. -/
def next? (d : Date) : Option Date :=
  if d.day < daysInMonth d.year d.month then ofParts? d.year d.month (d.day + 1)
  else if d.month < 12 then ofParts? d.year (d.month + 1) 1
  else ofParts? (d.year + 1) 1 1

/-- The day before. -/
def previous? (d : Date) : Option Date :=
  if 1 < d.day then ofParts? d.year d.month (d.day - 1)
  else if 1 < d.month then ofParts? d.year (d.month - 1) (daysInMonth d.year (d.month - 1))
  else ofParts? (d.year - 1) 12 31

/-- A number that grows with the date. It leaves gaps, as every month has room for 32 days. -/
def position (d : Date) : Int := (d.year * 13 + d.month) * 32 + d.day

end Date

end RecordQuery
