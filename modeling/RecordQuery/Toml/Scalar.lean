import RecordQuery.Calendar.Literal
import RecordQuery.Json.Reader
import RecordQuery.Number.Binary.Text
import RecordQuery.Text.Split
import RecordQuery.Toml

/-!
# Numbers and dates of TOML

A scalar that is not a string is a run of characters up to a blank or a delimiter.

* integers in four bases, with underscores between digits;
* floating-point numbers, which have a point or an exponent, infinities and NaN;
* dates and times, together or alone, where the seconds may be left out.
-/

namespace RecordQuery.Toml

open Text

/-! ## Numbers -/

/-- The digits of a number without the underscores between them. -/
def readDigits? (isKnown : Char → Bool) : List Char → Option (List Char)
  | [] => none
  | [c] => if isKnown c then some [c] else none
  | c :: '_' :: d :: cs =>
    if isKnown c then (readDigits? isKnown (d :: cs)).map (c :: ·) else none
  | c :: cs => if isKnown c then (readDigits? isKnown cs).map (c :: ·) else none

/-- The digits of a whole number, of which only zero starts with a zero. -/
def readWhole? (cs : List Char) : Option (List Char) :=
  (readDigits? isDigit cs).filter fun digits => digits.length == 1 || digits.head? != some '0'

/-- A sign and what follows it. -/
def cutSign : List Char → Bool × List Char
  | '-' :: cs => (true, cs)
  | '+' :: cs => (false, cs)
  | cs => (false, cs)

/-- The value of digits in a base. -/
def baseValue (base : Nat) (digits : List Char) : Nat :=
  digits.foldl (fun n c => base * n + (Json.hexValue? c).getD 0) 0

/-- An integer, if 128 bits are enough for it. -/
def integer? (negative : Bool) (n : Nat) : Option Toml :=
  if negative then (if n ≤ 2 ^ (127 : Nat) then some (.integer (-n)) else none)
  else if n < 2 ^ (128 : Nat) then some (.integer n) else none

/-- Reads an integer. -/
def readInteger? (cs : List Char) : Option Toml :=
  match cs with
  | '0' :: 'x' :: rest =>
    (readDigits? (fun c => (Json.hexValue? c).isSome) rest).bind fun ds =>
      integer? false (baseValue 16 ds)
  | '0' :: 'o' :: rest =>
    (readDigits? (fun c => '0' ≤ c && c ≤ '7') rest).bind fun ds => integer? false (baseValue 8 ds)
  | '0' :: 'b' :: rest =>
    (readDigits? (fun c => c == '0' || c == '1') rest).bind fun ds =>
      integer? false (baseValue 2 ds)
  | _ =>
    let (negative, digits) := cutSign cs
    (readWhole? digits).bind fun ds => integer? negative (digitsValue ds)

/-- Reads an exponent: an optional sign and digits. -/
def readExponent? (cs : List Char) : Option Int :=
  let (negative, digits) := cutSign cs
  (readDigits? isDigit digits).map fun ds =>
    if negative then -(digitsValue ds : Int) else (digitsValue ds : Int)

/-- A floating-point number from its parts, if it is not too large. -/
def float? (negative : Bool) (whole fraction : List Char) (exponent : Int) : Option Toml :=
  let x : Double := .ofDecimal .double negative (digitsValue (whole ++ fraction))
    (exponent - fraction.length)
  if x.isFinite then some (.float x) else none

/-- Reads a floating-point number. -/
def readFloat? (cs : List Char) : Option Toml :=
  let (negative, unsigned) := cutSign cs
  if unsigned = "inf".toList then some (.float (.infinite negative))
  else if unsigned = "nan".toList then some (.float .nan)
  else do
    let isMark := fun c : Char => c == 'e' || c == 'E'
    let mantissa := unsigned.takeWhile (!isMark ·)
    let exponent ← match unsigned.dropWhile (!isMark ·) with
      | [] => some none
      | _ :: rest => (readExponent? rest).map some
    let (whole, fraction) := cut '.' mantissa
    let whole ← readWhole? whole
    let fraction ← match fraction with
      | none => some none
      | some digits => (readDigits? isDigit digits).map some
    if exponent.isNone && fraction.isNone then none
    else float? negative whole (fraction.getD []) (exponent.getD 0)

/-! ## Dates and times -/

/-- The digits of a number of exactly `count` digits. -/
def readFixed? (count : Nat) (cs : List Char) : Option (Nat × List Char) :=
  readDigitRun? count count cs

/-- Reads a character. -/
def readChar? (c : Char) : List Char → Option (List Char)
  | d :: cs => if c = d then some cs else none
  | [] => none

/-- Reads a day that exists. -/
def readDay? (cs : List Char) : Option (List Char) := do
  let (year, cs) ← readFixed? 4 cs
  let cs ← readChar? '-' cs
  let (month, cs) ← readFixed? 2 cs
  let cs ← readChar? '-' cs
  let (day, cs) ← readFixed? 2 cs
  if (Date.ofParts? year month day).isSome then some cs else none

/-- Reads the seconds of a time with their fraction, if they are there. -/
def readSeconds? (cs : List Char) : Option (List Char) :=
  match cs with
  | ':' :: rest =>
    (readFixed? 2 rest).bind fun (second, rest) =>
      if 60 < second then none
      else match rest with
        | '.' :: digits =>
          if (digits.takeWhile isDigit).isEmpty then none else some (digits.dropWhile isDigit)
        | _ => some rest
  | _ => some cs

/-- Reads a time of day. -/
def readClock? (cs : List Char) : Option (List Char) := do
  let (hour, cs) ← readFixed? 2 cs
  let cs ← readChar? ':' cs
  let (minute, cs) ← readFixed? 2 cs
  if 23 < hour ∨ 59 < minute then none else readSeconds? cs

/-- Reads the distance from universal time, if it is there. -/
def readZone? (cs : List Char) : Option (List Char) :=
  match cs with
  | 'Z' :: rest | 'z' :: rest => some rest
  | '+' :: rest | '-' :: rest => do
    let (hour, rest) ← readFixed? 2 rest
    let rest ← readChar? ':' rest
    let (minute, rest) ← readFixed? 2 rest
    if 23 < hour ∨ 59 < minute then none else some rest
  | _ => some cs

/-- Whether a scalar is a day, a time, or both. -/
def isMoment (cs : List Char) : Bool :=
  match readDay? cs with
  | some [] => true
  | some (c :: rest) =>
    (c == 'T' || c == 't' || c == ' ') && (readClock? rest).bind readZone? == some []
  | none => readClock? cs == some []

/-! ## All scalars -/

/-- Reads a scalar that is not a string. -/
def readScalar? (cs : List Char) : Option Toml :=
  if cs = "true".toList then some (.bool true)
  else if cs = "false".toList then some (.bool false)
  else if isMoment cs then some .moment
  else match readInteger? cs with
    | some n => some n
    | none => readFloat? cs

/-- Whether a character can belong to a scalar. -/
def isScalarChar (c : Char) : Bool :=
  isDigit c || ('a' ≤ c && c ≤ 'z') || ('A' ≤ c && c ≤ 'Z') || c == '-' || c == '+' || c == '_'
    || c == '.' || c == ':'

/-- Cuts a scalar off. A blank between a day and a time belongs to it. -/
def cutScalar (cs : List Char) : List Char × List Char :=
  let first := cs.takeWhile isScalarChar
  let rest := cs.dropWhile isScalarChar
  match readDay? first, rest with
  | some [], ' ' :: d :: more =>
    if isDigit d then
      (first ++ ' ' :: (d :: more).takeWhile isScalarChar, (d :: more).dropWhile isScalarChar)
    else (first, rest)
  | _, _ => (first, rest)

end RecordQuery.Toml
