import RecordQuery.Calendar.Specifier
import RecordQuery.Text.Split
import RecordQuery.Value.Display

/-!
# Display formats of group keys

A format is `N` or `F` with up to two digits, for the number of decimals, or else a date pattern.
`N` separates thousands. A format that does not suit a value leaves it as it is shown.

* `NumberFormat.parse?` reads a number format;
* `groupThousands` puts a comma before every third digit of the integral part;
* `Value.format` writes a value in a format.
-/

namespace RecordQuery

open Text

/-- A format for numbers. -/
structure NumberFormat where
  /-- Whether thousands are separated. -/
  grouped : Bool
  places : Nat
  deriving DecidableEq

/-- The decimals of a number format that names none. -/
def defaultPlaces : Nat := 2

/-- Reads a number format. Decimal digits of other scripts are allowed, and name no number. -/
def NumberFormat.parse? (format : String) : Option NumberFormat :=
  match format.toList with
  | letter :: digits =>
    let known := letter = 'N' ∨ letter = 'n' ∨ letter = 'F' ∨ letter = 'f'
    if known ∧ digits.length ≤ 2 ∧ digits.all isDecimalDigit then
      some ⟨letter = 'N' ∨ letter = 'n', (readNat? digits).getD defaultPlaces⟩
    else none
  | [] => none

/-- Puts a comma before every third of the characters, counted from the end. -/
def commas : List Char → List Char
  | [] => []
  | c :: cs =>
    if cs.length % 3 = 0 ∧ cs ≠ [] then c :: ',' :: commas cs else c :: commas cs

/-- Separates the thousands of a number in fixed notation. -/
def groupThousands (fixed : List Char) : List Char :=
  let (sign, unsigned) := match fixed with
    | '-' :: rest => (['-'], rest)
    | _ => ([], fixed)
  match cut '.' unsigned with
  | (whole, some fraction) => sign ++ commas whole ++ '.' :: fraction
  | (whole, none) => sign ++ commas whole

/-- A number in a number format. -/
def NumberFormat.apply (format : NumberFormat) (x : Double) : String :=
  let fixed := x.fixed format.places
  if format.grouped then .ofList (groupThousands fixed.toList) else fixed

/-- A value in a date pattern: a date is written by its own clock. -/
def Value.formatDate (v : Value) (format : String) : String :=
  match v.wall? with
  | some t => (DatePattern.parse format).rendered t
  | none => v.display

/-- A value in a format. -/
def Value.format (v : Value) (format : String) : String :=
  match NumberFormat.parse? format, v.toDouble? with
  | some number, some x => number.apply x
  | _, _ => v.formatDate format

end RecordQuery
