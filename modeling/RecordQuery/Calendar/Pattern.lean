import RecordQuery.Calendar.Writer

/-!
# Display patterns for dates

A pattern such as `dd/MM/yyyy` is cut from the left: at each place the longest field name that
stands there, or else one character that stands for itself. Every text is a pattern.

* `DateField`: the twelve fields, with their names;
* `DatePattern.parse`: the parts of a pattern;
* `DatePattern.source`: the text of the parts. `source_parse` says that nothing is lost.
-/

namespace RecordQuery

open Text

/-- A part of a date or a time in a pattern. -/
inductive DateField
  | year
  | monthName
  | monthShortName
  | month
  | day
  | hour
  | hour12
  | minute
  | second
  | millisecond
  | halfDay
  | yearOfCentury
  deriving DecidableEq

namespace DateField

/-- The name of a field in a pattern. -/
def name : DateField → String
  | .year => "yyyy"
  | .monthName => "MMMM"
  | .monthShortName => "MMM"
  | .month => "MM"
  | .day => "dd"
  | .hour => "HH"
  | .hour12 => "hh"
  | .minute => "mm"
  | .second => "ss"
  | .millisecond => "fff"
  | .halfDay => "tt"
  | .yearOfCentury => "yy"

/-- All fields; a field whose name begins with the name of another comes first. -/
def all : List DateField :=
  [.year, .monthName, .monthShortName, .month, .day, .hour, .hour12, .minute, .second,
    .millisecond, .halfDay, .yearOfCentury]

/-- The field whose name stands at the front of a text. -/
def at? (cs : List Char) : Option DateField := all.find? fun f => f.name.toList.isPrefixOf cs

end DateField

def monthNames : List String :=
  ["January", "February", "March", "April", "May", "June", "July", "August", "September",
    "October", "November", "December"]

/-- A part of a pattern. -/
inductive DatePart
  | field (f : DateField)
  | literal (c : Char)
  deriving DecidableEq

/-- A pattern. -/
abbrev DatePattern := List DatePart

namespace DatePattern

/-- Cuts a pattern into parts; `skip` characters belong to the part before. -/
def parseFrom : Nat → List Char → DatePattern
  | _, [] => []
  | skip + 1, _ :: cs => parseFrom skip cs
  | 0, c :: cs =>
    match DateField.at? (c :: cs) with
    | some f => .field f :: parseFrom (f.name.length - 1) cs
    | none => .literal c :: parseFrom 0 cs

/-- The parts of a pattern. -/
def parse (format : String) : DatePattern := parseFrom 0 format.toList

/-- The text that a part was read from. -/
def partSource : DatePart → List Char
  | .field f => f.name.toList
  | .literal c => [c]

/-- The text that a pattern was read from. -/
def source (p : DatePattern) : List Char := p.flatMap partSource

/-- The text of a field of a time. -/
def fieldText (t : LocalDateTime) : DateField → List Char
  | .year => yearDigits t.date.year
  | .monthName => (monthNames.getD (t.date.month - 1) "").toList
  | .monthShortName => (monthNames.getD (t.date.month - 1) "").toList.take 3
  | .month => padDigits 2 t.date.month
  | .day => padDigits 2 t.date.day
  | .hour => padDigits 2 t.hour
  | .hour12 => padDigits 2 (if t.hour % 12 = 0 then 12 else t.hour % 12)
  | .minute => padDigits 2 t.minute
  | .second => padDigits 2 t.shownSecond
  | .millisecond => t.milliDigits
  | .halfDay => if t.hour < 12 then ['A', 'M'] else ['P', 'M']
  | .yearOfCentury => padDigits 2 (t.date.year % 100).toNat

/-- The text of a part of a pattern at a time. -/
def partText (t : LocalDateTime) : DatePart → List Char
  | .field f => fieldText t f
  | .literal c => [c]

/-- The text of a pattern at a time. -/
def render (p : DatePattern) (t : LocalDateTime) : String := String.ofList (p.flatMap (partText t))

/-- The name of the field at the front, and what is left for the parts behind it. -/
theorem eq_name_append {c : Char} {cs : List Char} {f : DateField}
    (h : DateField.at? (c :: cs) = some f) :
    c :: cs = f.name.toList ++ cs.drop (f.name.length - 1) := by
  rw [DateField.at?] at h
  have found := List.find?_some h
  obtain ⟨rest, front⟩ := List.isPrefixOf_iff_prefix.1 found
  obtain ⟨n, length⟩ : ∃ n, f.name.toList.length = n + 1 := by cases f <;> exact ⟨_, rfl⟩
  have behind : (c :: cs).drop f.name.toList.length = rest := by rw [← front, List.drop_left]
  rw [length, List.drop_succ_cons] at behind
  rw [← String.length_toList, length, Nat.add_sub_cancel, behind, front]

theorem source_parseFrom (skip : Nat) (cs : List Char) :
    (parseFrom skip cs).flatMap partSource = cs.drop skip := by
  fun_induction parseFrom skip cs with
  | case1 => simp
  | case2 skip c cs ih => simpa using ih
  | case3 c cs f h ih =>
    rw [List.flatMap_cons, partSource, ih, ← eq_name_append h, List.drop_zero]
  | case4 c cs h ih => simp [partSource, ih]

/-- The parts of a pattern hold its whole text, in order. -/
theorem source_parse (format : String) : (parse format).source = format.toList := by
  simpa [source, parse] using source_parseFrom 0 format.toList

end DatePattern

end RecordQuery
