import RecordQuery.Number.Decimal

/-!
# Reading decimal numbers

A decimal number is written with an optional sign, digits and an optional point. Underscores may
stand between the digits. Decimals past the twenty-eighth, or past what the magnitude can hold, are
rounded away by the first of them, a five going up. Behind a magnitude that fits a word, an
underscore in the place of that digit stands for a zero; behind a larger one it is skipped. An
integral part that is too large is refused.

With an exponent the same number moves its point. To the left it moves by 28 places at most, and
decimals past the twenty-eighth are rounded away again, a half going up. To the right it may move by
more than 28 places only where that many decimals are written.

* `Decimal.readPlain?`: without an exponent;
* `Decimal.readScientific?`: with an exponent;
* `Decimal.read?`: either.
-/

namespace RecordQuery.Decimal

open Text

/-- The decimal of a sign, a magnitude and a scale; zero is positive. -/
def signed? (negative : Bool) (mantissa scale : Nat) : Option Decimal :=
  ofParts? (negative && mantissa != 0) mantissa scale

/-- Magnitudes below this bound fit a word of 64 bits with one more digit and some room to spare. -/
def wordBound : Nat := 2 ^ (64 : Nat) / 10 - 255

/-- Ends a number at decimals that there is no room for. The first of them rounds; an underscore in
its place does not. -/
def roundOff (negative : Bool) (mantissa scale : Nat) (excess : List Char) : Option Decimal :=
  if !excess.all (fun c => isDigit c || c == '_') then none
  else if !excess.head?.any (fun c => isDigit c && 5 ≤ digitValue c) then
    signed? negative mantissa scale
  else if mantissa + 1 < decimalBound then signed? negative (mantissa + 1) scale
  else match scale with
    | 0 => none
    | scale + 1 => signed? negative ((mantissa + 5) / 10) scale

/-- Reads on after the digits of `mantissa`, of which `scale` stand behind the point. `point` tells
whether the point was read, `any` whether a digit was. -/
def readDigits? (negative : Bool) (point any : Bool) (mantissa scale : Nat) :
    List Char → Option Decimal
  | [] => if any then signed? negative mantissa scale else none
  | c :: cs =>
    if isDigit c then
      let next := 10 * mantissa + digitValue c
      if decimalBound ≤ next then
        if point then roundOff negative mantissa scale (c :: cs) else none
      else
        let scale := if point then scale + 1 else 0
        if point && maxScale ≤ scale then
          roundOff negative next scale
            (if mantissa < wordBound then cs else cs.dropWhile (· == '_'))
        else readDigits? negative point true next scale cs
    else if c = '.' && !point then readDigits? negative true any mantissa scale cs
    else if c = '_' && any then readDigits? negative point any mantissa scale cs
    else none

/-- Reads a decimal number without an exponent. -/
def readPlain? : List Char → Option Decimal
  | '-' :: cs => readDigits? true false false 0 0 cs
  | '+' :: cs => readDigits? false false false 0 0 cs
  | cs => readDigits? false false false 0 0 cs

/-- Moves the point of a number to the right. -/
def shiftRight? (d : Decimal) (places : Nat) : Option Decimal :=
  if places ≤ d.scale then ofParts? d.negative d.mantissa (d.scale - places)
  else if maxScale < places then none
  else signed? d.negative (d.mantissa * 10 ^ (places - d.scale)) 0

/-- Moves the point of a number to the left. A zero keeps its sign. -/
def shiftLeft? (d : Decimal) (places : Nat) : Option Decimal :=
  if maxScale < places then none
  else
    let excess := d.scale + places - maxScale
    ofParts? d.negative (halfUp d.mantissa (10 ^ excess)) (d.scale + places - excess)

/-- Reads a decimal number with an exponent. -/
def readScientific? (cs : List Char) : Option Decimal :=
  let isMark := fun c : Char => c == 'e' || c == 'E'
  match cs.dropWhile (!isMark ·) with
  | [] => none
  | _ :: exponent =>
    (readPlain? (cs.takeWhile (!isMark ·))).bind fun base =>
      match exponent with
      | '-' :: places => (readUnsigned? 32 places).bind (shiftLeft? base)
      | places => (readUnsigned? 32 places).bind (shiftRight? base)

/-- Reads a decimal number, with or without an exponent. -/
def read? (cs : List Char) : Option Decimal :=
  match readPlain? cs with
  | some d => some d
  | none => readScientific? cs

end RecordQuery.Decimal
