import RecordQuery.Json

/-!
# Writing JSON

* `Json.compact` writes no white space at all;
* `Json.pretty` puts every item and member on a line of its own, two spaces per level.

Binary numbers are written with the fewest digits that read back, positional in the middle range
and with an exponent outside, and never without a fraction or an exponent. NaN and the infinities
have no JSON form and are written as null.
-/

namespace RecordQuery.Json

open Text

/-- How binary numbers are written. -/
structure NumberStyle where
  /-- The least power of ten of a first digit in positional notation. -/
  least : Int
  /-- The greatest power of ten of a first digit in positional notation. -/
  greatest : Int

/-- Numbers of 64 bits are positional from `1e-5` up to `1e16`. -/
def doubleStyle : NumberStyle := ⟨-5, 15⟩

/-- Numbers of 32 bits are positional from `1e-6` up to `1e13`. -/
def singleStyle : NumberStyle := ⟨-6, 12⟩

/-- A positive decimal with a first digit at `power`, with an exponent. -/
def scientific (d : DecimalDigits) (power : Int) : List Char :=
  let mantissa := match d.digits with
    | [] => ['0']
    | [c] => [c]
    | c :: cs => c :: '.' :: cs
  mantissa ++ 'e' :: (if power < 0 then intDigits power else '+' :: intDigits power)

/-- A positive decimal in a style. -/
def NumberStyle.digits (style : NumberStyle) (d : DecimalDigits) : List Char :=
  let power := d.point - 1
  if power < style.least ∨ style.greatest < power then scientific d power
  else if (d.digits.length : Int) ≤ d.point then d.plain ++ ['.', '0']
  else d.plain

/-- A binary number as JSON. -/
def NumberStyle.text {f : Format} (style : NumberStyle) : Binary f → String
  | .nan => "null"
  | .infinite _ => "null"
  | .finite negative units _ =>
    String.ofList (Binary.withSign negative
      (if units = 0 then ['0', '.', '0'] else style.digits (shortest f .even units)))

/-- A digit below 16. -/
def hexDigit (n : Nat) : Char := Nat.digitChar n

/-- A character inside a string. Quotes, backslashes and control characters are escaped. -/
def escape (c : Char) : List Char :=
  if c = '"' then ['\\', '"']
  else if c = '\\' then ['\\', '\\']
  else if c = '\n' then ['\\', 'n']
  else if c = '\r' then ['\\', 'r']
  else if c = '\t' then ['\\', 't']
  else if c.toNat = 8 then ['\\', 'b']
  else if c.toNat = 12 then ['\\', 'f']
  else if c.toNat < 0x20 then
    ['\\', 'u', '0', '0', hexDigit (c.toNat / 16), hexDigit (c.toNat % 16)]
  else [c]

/-- A string with its quotes. -/
def quote (s : String) : String := String.ofList ('"' :: s.toList.flatMap escape ++ ['"'])

/-- A document without items and members. -/
def leaf : Json → String
  | .null => "null"
  | .bool b => if b then "true" else "false"
  | .integer n => intText n
  | .single x => singleStyle.text x
  | .double x => doubleStyle.text x
  | .string s => quote s
  | .array _ => "[]"
  | .object _ => "\x7b\x7d"

mutual

/-- The document without white space. -/
def compact : Json → String
  | .array items => "[" ++ compactItems items ++ "]"
  | .object members => "\x7b" ++ compactMembers members ++ "\x7d"
  | j => j.leaf

def compactItems : List Json → String
  | [] => ""
  | [item] => item.compact
  | item :: items => item.compact ++ "," ++ compactItems items

def compactMembers : List (String × Json) → String
  | [] => ""
  | [(name, value)] => quote name ++ ":" ++ value.compact
  | (name, value) :: members => quote name ++ ":" ++ value.compact ++ "," ++ compactMembers members

end

/-- A line break and the indentation of a level. -/
def newLine (level : Nat) : String := "\n" ++ String.ofList (List.replicate (2 * level) ' ')

mutual

/-- The document on several lines, as it stands at a level. -/
def prettyAt (level : Nat) : Json → String
  | .array (item :: items) =>
    "[" ++ newLine (level + 1) ++ item.prettyAt (level + 1) ++ prettyItems (level + 1) items
      ++ newLine level ++ "]"
  | .object ((name, value) :: members) =>
    "\x7b" ++ newLine (level + 1) ++ quote name ++ ": " ++ value.prettyAt (level + 1)
      ++ prettyMembers (level + 1) members ++ newLine level ++ "\x7d"
  | j => j.leaf

def prettyItems (level : Nat) : List Json → String
  | [] => ""
  | item :: items => "," ++ newLine level ++ item.prettyAt level ++ prettyItems level items

def prettyMembers (level : Nat) : List (String × Json) → String
  | [] => ""
  | (name, value) :: members =>
    "," ++ newLine level ++ quote name ++ ": " ++ value.prettyAt level ++
      prettyMembers level members

end

/-- The document on several lines. -/
def pretty (j : Json) : String := j.prettyAt 0

end RecordQuery.Json
