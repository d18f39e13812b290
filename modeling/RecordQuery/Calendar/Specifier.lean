import RecordQuery.Calendar.Pattern

/-!
# Texts of specifiers

A pattern is rendered by way of a text in which every field is a specifier such as `%Y`. A percent
sign that stands for itself is doubled there; one that begins no specifier cannot be rendered.

* `DatePattern.specifiers`: the text of a pattern;
* `DatePattern.items?`: the parts that such a text is read as, and `items?_specifiers`: the text of
  a pattern is read as the pattern;
* `DatePattern.rendered?`: a time by a text of specifiers, and `DatePattern.rendered` by the text of
  a pattern, which always can be rendered.
-/

namespace RecordQuery

namespace DateField

/-- What stands for a field in a text of specifiers. -/
def specifier : DateField → String
  | .year => "%Y"
  | .monthName => "%B"
  | .monthShortName => "%b"
  | .month => "%m"
  | .day => "%d"
  | .hour => "%H"
  | .hour12 => "%I"
  | .minute => "%M"
  | .second => "%S"
  | .millisecond => "%3f"
  | .halfDay => "%p"
  | .yearOfCentury => "%y"

/-- The field whose specifier is a percent sign with this letter. -/
def ofLetter? : Char → Option DateField
  | 'Y' => some .year
  | 'B' => some .monthName
  | 'b' => some .monthShortName
  | 'm' => some .month
  | 'd' => some .day
  | 'H' => some .hour
  | 'I' => some .hour12
  | 'M' => some .minute
  | 'S' => some .second
  | 'p' => some .halfDay
  | 'y' => some .yearOfCentury
  | _ => none

end DateField

namespace DatePattern

/-- What stands for a part in a text of specifiers. -/
def partSpecifier : DatePart → List Char
  | .field f => f.specifier.toList
  | .literal c => if c = '%' then ['%', '%'] else [c]

/-- The text of specifiers for a pattern. -/
def specifiers (p : DatePattern) : List Char := p.flatMap partSpecifier

/-- Reads a text of specifiers from the left. -/
def items? : List Char → Option DatePattern
  | [] => some []
  | '%' :: '%' :: cs => (items? cs).map (.literal '%' :: ·)
  | '%' :: '3' :: 'f' :: cs => (items? cs).map (.field .millisecond :: ·)
  | '%' :: c :: cs => (DateField.ofLetter? c).bind fun f => (items? cs).map (.field f :: ·)
  | '%' :: [] => none
  | c :: cs => (items? cs).map (.literal c :: ·)

theorem items?_specifier (f : DateField) (cs : List Char) :
    items? (f.specifier.toList ++ cs) = (items? cs).map (.field f :: ·) := by
  cases f <;> rfl

theorem items?_percent (cs : List Char) :
    items? ('%' :: '%' :: cs) = (items? cs).map (.literal '%' :: ·) := rfl

theorem items?_literal {c : Char} (h : c ≠ '%') (cs : List Char) :
    items? (c :: cs) = (items? cs).map (.literal c :: ·) := by
  simp [items?, h]

/-- **The text of a pattern** is read as the pattern. -/
theorem items?_specifiers (p : DatePattern) : items? p.specifiers = some p := by
  induction p with
  | nil => rfl
  | cons part p ih =>
    rw [specifiers, List.flatMap_cons]
    cases part with
    | field f =>
      rw [partSpecifier, items?_specifier]
      exact congrArg _ ih
    | literal c =>
      rw [partSpecifier]
      split
      · next percent =>
        subst percent
        exact congrArg _ ih
      · next other =>
        rw [List.singleton_append, items?_literal other]
        exact congrArg _ ih

/-- A time rendered by a text of specifiers, if there is nothing else behind a percent sign. -/
def rendered? (t : LocalDateTime) (text : List Char) : Option String :=
  (items? text).map (·.render t)

theorem rendered?_specifiers (p : DatePattern) (t : LocalDateTime) :
    rendered? t p.specifiers = some (p.render t) := by
  rw [rendered?, items?_specifiers]
  rfl

/-- A time rendered by the text of specifiers for a pattern. -/
def rendered (p : DatePattern) (t : LocalDateTime) : String :=
  (rendered? t p.specifiers).get (by rw [rendered?_specifiers]; rfl)

theorem rendered_eq (p : DatePattern) (t : LocalDateTime) : p.rendered t = p.render t := by
  simp only [rendered, rendered?_specifiers, Option.get_some]

end DatePattern

end RecordQuery
