import RecordQuery.Calendar.DateTime
import RecordQuery.Calendar.Writer
import RecordQuery.Number.Power
import RecordQuery.Text.Blank
import RecordQuery.Text.Digit

/-!
# Reading dates

A date literal with a zone at its end, a `Z` or an offset such as `+02:00`, denotes an instant; any
other literal is a time on a clock on the wall. For each of the two there is a list of forms, and
the first form that fits the whole literal decides.

* `DateForm`: a form, as a list of items, and `DateForm.read?` for one form;
* `readInternet?`: the strict form of Internet dates, which comes first for literals with a zone;
* `DateLiteral.read?`: a literal of any form.
-/

namespace RecordQuery

open Text

/-- An item of a form. -/
inductive DateItem
  /-- The character itself. -/
  | literal (c : Char)
  /-- White space, or nothing. -/
  | blank
  /-- Up to four digits, or any number of them behind a sign. -/
  | year
  | month
  | day
  | hour
  | minute
  | second
  /-- A point and digits, or nothing. -/
  | fraction
  /-- A sign, two digits of hours and two of minutes. -/
  | offset
  deriving DecidableEq

/-- A form of a date literal. -/
abbrev DateForm := List DateItem

/-- What was read of a date. -/
structure DateParts where
  year : Int := 0
  month : Nat := 0
  day : Nat := 0
  hour : Nat := 0
  minute : Nat := 0
  second : Nat := 0
  nano : Nat := 0
  /-- Seconds ahead of universal time. -/
  offset : Int := 0

namespace DateParts

def date? (p : DateParts) : Option Date := Date.ofParts? p.year p.month p.day

/-- The time that was read; a second of 60 is the leap second. -/
def time? (p : DateParts) : Option LocalDateTime :=
  p.date?.bind fun date => LocalDateTime.ofParts? date p.hour p.minute p.second p.nano

/-- The time that was read, with its offset. -/
def offsetTime? (p : DateParts) : Option OffsetDateTime :=
  p.time?.bind fun wall => OffsetDateTime.ofWall? wall p.offset

end DateParts

/-- Reads a number of `low` to `high` digits. -/
def readDigitRun? (low high : Nat) (cs : List Char) : Option (Nat × List Char) :=
  let (digits, rest) := spanDigits high cs
  if digits.length < low then none else some (digitsValue digits, rest)

/-- Reads all digits at the front, at least one. -/
def readAllDigits? (cs : List Char) : Option (Nat × List Char) :=
  readDigitRun? 1 cs.length cs

/-- Reads a year. -/
def readYear? (cs : List Char) : Option (Int × List Char) :=
  match cs with
  | '-' :: rest => (readAllDigits? rest).map fun (n, rest) => (-(n : Int), rest)
  | '+' :: rest => (readAllDigits? rest).map fun (n, rest) => ((n : Int), rest)
  | _ => (readDigitRun? 1 4 cs).map fun (n, rest) => ((n : Int), rest)

/-- Reads a fraction into nanoseconds, if there is one. Digits past the ninth do not count. -/
def readFraction? (cs : List Char) : Option (Nat × List Char) :=
  match cs with
  | '.' :: rest =>
    let (digits, rest) := spanDigits 9 rest
    if digits.isEmpty then none
    else some (digitsValue digits * 10 ^ (9 - digits.length), rest.dropWhile isDigit)
  | _ => some (0, cs)

/-- Reads an offset in seconds, where `separator` is skipped between hours and minutes. -/
def readOffset? (separator : List Char → Option (List Char)) (cs : List Char) :
    Option (Int × List Char) :=
  let sign := match cs with
    | '+' :: rest => some ((1 : Int), rest)
    | '-' :: rest => some ((-1 : Int), rest)
    | _ => none
  sign.bind fun (sign, rest) =>
    (readDigitRun? 2 2 rest).bind fun (hours, rest) =>
      (separator rest).bind fun rest =>
        (readDigitRun? 2 2 rest).bind fun (minutes, rest) =>
          if minutes < 60 then some (sign * (hours * 3600 + minutes * 60), rest) else none

/-- Colons and white space between the hours and the minutes of an offset. -/
def looseSeparator (cs : List Char) : Option (List Char) :=
  some (cs.dropWhile fun c => c == ':' || isBlank c)

/-- One colon between the hours and the minutes of an offset. -/
def colonSeparator : List Char → Option (List Char)
  | ':' :: cs => some cs
  | _ => none

/-- Reads a number of one or two digits that may not exceed `top`, after white space. -/
def readField? (top : Nat) (cs : List Char) : Option (Nat × List Char) :=
  (readDigitRun? 1 2 (trimStart cs)).filter fun (n, _) => n ≤ top

/-- Reads one item. White space is skipped before every number and before an offset. -/
def DateItem.read? (parts : DateParts) (cs : List Char) : DateItem → Option (DateParts × List Char)
  | .literal c => match cs with
    | d :: rest => if c = d then some (parts, rest) else none
    | [] => none
  | .blank => some (parts, trimStart cs)
  | .year => (readYear? (trimStart cs)).map fun (n, rest) => ({ parts with year := n }, rest)
  | .month => (readField? 12 cs).map fun (n, rest) => ({ parts with month := n }, rest)
  | .day => (readField? 31 cs).map fun (n, rest) => ({ parts with day := n }, rest)
  | .hour => (readField? 23 cs).map fun (n, rest) => ({ parts with hour := n }, rest)
  | .minute => (readField? 59 cs).map fun (n, rest) => ({ parts with minute := n }, rest)
  | .second => (readField? 60 cs).map fun (n, rest) => ({ parts with second := n }, rest)
  | .fraction => (readFraction? cs).map fun (n, rest) => ({ parts with nano := n }, rest)
  | .offset =>
    (readOffset? looseSeparator (trimStart cs)).map fun (n, rest) =>
      ({ parts with offset := n }, rest)

namespace DateForm

/-- Reads a literal that a form fits from its first character to its last. -/
def readFrom? (parts : DateParts) (cs : List Char) : DateForm → Option DateParts
  | [] => if cs.isEmpty then some parts else none
  | item :: items => (item.read? parts cs).bind fun (parts, rest) => readFrom? parts rest items

/-- Reads a literal that a form fits as a whole. -/
def read? (form : DateForm) (cs : List Char) : Option DateParts := readFrom? {} cs form

/-- Year, month and day with a separator. -/
def yearFirst (separator : Char) : DateForm :=
  [.year, .literal separator, .month, .literal separator, .day]

/-- Month, day and year with slashes. -/
def monthFirst : DateForm := [.month, .literal '/', .day, .literal '/', .year]

/-- Hour and minute with a colon. -/
def toMinute : DateForm := [.hour, .literal ':', .minute]

/-- Hour, minute and second with colons. -/
def toSecond : DateForm := toMinute ++ [.literal ':', .second]

/-- The forms of a date with a time and a zone. -/
def withOffset : List DateForm := [
  yearFirst '-' ++ .literal 'T' :: toSecond ++ [.fraction, .offset],
  yearFirst '-' ++ .blank :: toSecond ++ [.fraction, .offset],
  yearFirst '-' ++ .literal 'T' :: toMinute ++ [.offset]]

/-- The forms of a date with a time. -/
def withTime : List DateForm := [
  yearFirst '-' ++ .literal 'T' :: toSecond ++ [.fraction],
  yearFirst '-' ++ .blank :: toSecond ++ [.fraction],
  yearFirst '-' ++ .literal 'T' :: toMinute,
  yearFirst '-' ++ .blank :: toMinute,
  monthFirst ++ .blank :: toSecond,
  monthFirst ++ .blank :: toMinute]

/-- The forms of a date alone. -/
def dateOnly : List DateForm := [yearFirst '-', monthFirst, yearFirst '/']

end DateForm

/-- Reads an Internet date: all fields at full width, the day and the time separated by a `T` or a
blank, and at the end a `Z` or an offset with a colon. -/
def readInternet? (cs : List Char) : Option OffsetDateTime := do
  let (year, cs) ← readDigitRun? 4 4 cs
  let cs ← dash cs
  let (month, cs) ← readDigitRun? 2 2 cs
  let cs ← dash cs
  let (day, cs) ← readDigitRun? 2 2 cs
  let cs ← separator cs
  let (hour, cs) ← readDigitRun? 2 2 cs
  let cs ← colonSeparator cs
  let (minute, cs) ← readDigitRun? 2 2 cs
  let cs ← colonSeparator cs
  let (second, cs) ← readDigitRun? 2 2 cs
  let (nano, cs) ← readFraction? cs
  let (offset, cs) ← zone cs
  if !cs.isEmpty || 60 < second then none
  else DateParts.offsetTime? ⟨year, month, day, hour, minute, second, nano, offset⟩
where
  dash : List Char → Option (List Char)
    | '-' :: cs => some cs
    | _ => none
  separator : List Char → Option (List Char)
    | c :: cs => if c = 'T' ∨ c = 't' ∨ c = ' ' then some cs else none
    | [] => none
  zone : List Char → Option (Int × List Char)
    | 'Z' :: cs | 'z' :: cs => some (0, cs)
    | cs => readOffset? colonSeparator cs

/-- Whether a literal ends in a `Z`, or in a sign, two digits, an optional colon and two digits. -/
def hasZone (cs : List Char) : Bool :=
  match cs.reverse with
  | 'Z' :: _ | 'z' :: _ => true
  | d :: c :: rest =>
    isDecimalDigit d && isDecimalDigit c &&
      match (match rest with | ':' :: more => more | _ => rest) with
      | b :: a :: sign :: _ => isDecimalDigit b && isDecimalDigit a && (sign == '+' || sign == '-')
      | _ => false
  | _ => false

/-- A date that was read. -/
inductive DateLiteral
  /-- The literal names its zone. -/
  | zoned (t : OffsetDateTime)
  /-- The literal is a time on a clock on the wall. -/
  | wall (t : LocalDateTime)
  deriving DecidableEq

namespace DateLiteral

/-- Universal time where a zone was given, else the time on the wall. -/
def universal : DateLiteral → LocalDateTime
  | .zoned t => t.instant
  | .wall t => t

/-- The time with its offset; a time on the wall is taken for universal time. -/
def toOffset : DateLiteral → OffsetDateTime
  | .zoned t => t
  | .wall t => .ofUniversal t

/-- Universal time with milliseconds. -/
def canonical (d : DateLiteral) : String := d.universal.canonical

/-- Reads a literal with a zone. -/
def readZoned? (cs : List Char) : Option OffsetDateTime :=
  match readInternet? cs with
  | some t => some t
  | none => DateForm.withOffset.findSome? fun form => (form.read? cs).bind DateParts.offsetTime?

/-- Reads a literal without a zone. -/
def readWall? (cs : List Char) : Option LocalDateTime :=
  match DateForm.withTime.findSome? fun form => (form.read? cs).bind DateParts.time? with
  | some t => some t
  | none =>
    (DateForm.dateOnly.findSome? fun form => (form.read? cs).bind DateParts.date?).map .midnight

/-- Reads a date literal; white space around it does not count. -/
def read? (text : String) : Option DateLiteral :=
  let cs := trim text.toList
  if hasZone cs then (readZoned? cs).map .zoned else (readWall? cs).map .wall

end DateLiteral

end RecordQuery
