import RecordQuery.Number.Binary.Shortest
import RecordQuery.Number.Integer
import RecordQuery.Text.LowerCase

/-!
# Binary numbers as text

* `Binary.display` writes all digits of the shortest decimal that reads back, without an exponent;
* `Binary.fixed` writes a given number of decimals of the exact value;
* `Binary.read?` reads decimal numbers with an optional exponent, infinities and NaN.
-/

namespace RecordQuery

open Text

/-- The digits of a positive decimal without an exponent and without needless zeros. -/
def DecimalDigits.plain (d : DecimalDigits) : List Char :=
  match d.point with
  | .negSucc p => '0' :: '.' :: List.replicate (p + 1) '0' ++ d.digits
  | .ofNat p =>
    if p = 0 then '0' :: '.' :: d.digits
    else if d.digits.length ≤ p then d.digits ++ List.replicate (p - d.digits.length) '0'
    else d.digits.take p ++ '.' :: d.digits.drop p

namespace Binary

variable {f : Format}

/-- Writes the sign of a number before its text. -/
def withSign (negative : Bool) (cs : List Char) : List Char :=
  if negative then '-' :: cs else cs

/-- Plain notation of the shortest decimal that reads back. -/
def display : Binary f → String
  | .nan => "NaN"
  | .infinite negative => String.ofList (withSign negative "inf".toList)
  | .finite negative units _ =>
    String.ofList (withSign negative
      (if units = 0 then ['0'] else (shortest f .up units).plain))

/-- A natural number of `10 ^ -places` with its decimal point. -/
def placesDigits (places n : Nat) : List Char :=
  let digits := padDigits (places + 1) n
  let whole := digits.take (digits.length - places)
  if places = 0 then whole else whole ++ '.' :: digits.drop (digits.length - places)

/-- The exact value rounded to `places` decimals, a half going to the even digit. The sign is kept
even where all digits are zero. -/
def fixed (places : Nat) : Binary f → String
  | .nan => "NaN"
  | .infinite negative => String.ofList (withSign negative "inf".toList)
  | .finite negative units _ =>
    String.ofList (withSign negative
      (placesDigits places (halfEven (units * 10 ^ places) (2 ^ f.unit))))

/-- The number nearest `mantissa · 10 ^ exponent`. Far outside the range of all formats the power
is not computed: the result is infinite or zero. -/
def ofDecimal (f : Format) (negative : Bool) (mantissa : Nat) (exponent : Int) : Binary f :=
  let size := exponent + (natDigits mantissa).length
  if mantissa = 0 ∨ size < -400 then zero f negative
  else if 400 < size then .infinite negative
  else match exponent with
    | .ofNat e => ofRatio f negative (mantissa * 10 ^ e) 1
    | .negSucc e => ofRatio f negative mantissa (10 ^ (e + 1))

/-- The digits at the front of a text, all of them. -/
def digitsAt (cs : List Char) : List Char × List Char :=
  (cs.takeWhile isDigit, cs.dropWhile isDigit)

/-- Reads an exponent: nothing, or `e` with an optional sign and digits. -/
def readExponent? : List Char → Option Int
  | [] => some 0
  | c :: cs => if c = 'e' ∨ c = 'E' then readInt? cs else none

/-- Reads a number without a sign: digits with an optional point among or around them, then an
optional exponent. -/
def readMagnitude? (f : Format) (negative : Bool) (cs : List Char) : Option (Binary f) :=
  let name := String.ofList (cs.map asciiLowerChar)
  if name = "nan" then some .nan
  else if name = "inf" ∨ name = "infinity" then some (.infinite negative)
  else
    let (whole, rest) := digitsAt cs
    let (fraction, rest) := match rest with
      | '.' :: more => digitsAt more
      | _ => ([], rest)
    if whole.isEmpty && fraction.isEmpty then none
    else (readExponent? rest).map fun exponent =>
      ofDecimal f negative (digitsValue (whole ++ fraction)) (exponent - fraction.length)

/-- Reads a number with an optional sign. -/
def read? (f : Format) : List Char → Option (Binary f)
  | '-' :: cs => readMagnitude? f true cs
  | '+' :: cs => readMagnitude? f false cs
  | cs => readMagnitude? f false cs

end Binary

end RecordQuery
