import RecordQuery.Calendar.DateTime
import RecordQuery.Text.Digit

/-!
# Writing dates

* `LocalDateTime.display` and `OffsetDateTime.display` write all that is known of a time, in the
  form `2023-08-23T10:20:30.5+02:00` with a fraction of no, three, six or nine digits;
* `LocalDateTime.stamp` cuts the fraction to milliseconds;
* `LocalDateTime.canonical` is the stamp of universal time, marked as such by a `Z`.
-/

namespace RecordQuery

open Text

/-- A year in four digits; outside 0 to 9999 with a sign and at least four digits. -/
def yearDigits (year : Int) : List Char :=
  if 0 ≤ year ∧ year ≤ 9999 then padDigits 4 year.toNat
  else if year < 0 then '-' :: padDigits 4 year.natAbs
  else '+' :: padDigits 4 year.natAbs

namespace Date

/-- Year, month and day with dashes. -/
def digits (d : Date) : List Char :=
  yearDigits d.year ++ '-' :: padDigits 2 d.month ++ '-' :: padDigits 2 d.day

end Date

namespace LocalDateTime

/-- Hour, minute and second with colons. -/
def clockDigits (t : LocalDateTime) : List Char :=
  padDigits 2 t.hour ++ ':' :: padDigits 2 t.minute ++ ':' :: padDigits 2 t.shownSecond

/-- The fraction of the second, in as many groups of three digits as it needs. -/
def fractionDigits (t : LocalDateTime) : List Char :=
  let nano := t.shownNano
  if nano = 0 then []
  else if nano % 1000000 = 0 then '.' :: padDigits 3 (nano / 1000000)
  else if nano % 1000 = 0 then '.' :: padDigits 6 (nano / 1000)
  else '.' :: padDigits 9 nano

/-- The milliseconds of the second, without rounding. -/
def milliDigits (t : LocalDateTime) : List Char := padDigits 3 (t.shownNano / 1000000)

/-- Date and time with the whole fraction, as characters. -/
def displayDigits (t : LocalDateTime) : List Char :=
  t.date.digits ++ 'T' :: t.clockDigits ++ t.fractionDigits

/-- Date and time with milliseconds, as characters. -/
def stampDigits (t : LocalDateTime) : List Char :=
  t.date.digits ++ 'T' :: t.clockDigits ++ '.' :: t.milliDigits

/-- Date and time with the whole fraction. -/
def display (t : LocalDateTime) : String := String.ofList t.displayDigits

/-- Date and time with milliseconds. -/
def stamp (t : LocalDateTime) : String := String.ofList t.stampDigits

/-- Universal time with milliseconds. -/
def canonical (t : LocalDateTime) : String := String.ofList (t.stampDigits ++ ['Z'])

end LocalDateTime

namespace OffsetDateTime

/-- The offset to the nearest minute. -/
def offsetDigits (t : OffsetDateTime) : List Char :=
  let minutes := (t.offset.natAbs + 30) / 60
  (if t.offset < 0 then '-' else '+') ::
    padDigits 2 (minutes / 60) ++ ':' :: padDigits 2 (minutes % 60)

/-- Date, time and offset, as characters. -/
def displayDigits (t : OffsetDateTime) : List Char := t.wall.displayDigits ++ t.offsetDigits

/-- Date, time and offset. -/
def display (t : OffsetDateTime) : String := String.ofList t.displayDigits

/-- The instant in universal time with milliseconds. -/
def canonical (t : OffsetDateTime) : String := t.instant.canonical

end OffsetDateTime

end RecordQuery
