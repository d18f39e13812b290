import RecordQuery.Json.Reader

/-!
# Globally unique identifiers

A number of 128 bits, written as 32 hexadecimal digits in groups of 8, 4, 4, 4 and 12. Three more
forms are read: the digits without dashes, the grouped form in braces, and the grouped form behind
`urn:uuid:`.
-/

namespace RecordQuery

/-- An identifier of 128 bits. -/
structure Guid where
  bits : BitVec 128
  deriving DecidableEq

namespace Guid

/-- The hexadecimal digits of a number, `count` of them, from the last to the first. -/
def hexDigitsReverse : Nat → Nat → List Char
  | 0, _ => []
  | count + 1, n => Nat.digitChar (n % 16) :: hexDigitsReverse count (n / 16)

/-- Puts dashes after the eighth, twelfth, sixteenth and twentieth digit. -/
def group (digits : List Char) : List Char :=
  digits.take 8 ++ '-' :: (digits.drop 8).take 4 ++ '-' :: (digits.drop 12).take 4
    ++ '-' :: (digits.drop 16).take 4 ++ '-' :: digits.drop 20

/-- The grouped form, in lower case. -/
def display (g : Guid) : String :=
  String.ofList (group (hexDigitsReverse 32 g.bits.toNat).reverse)

/-- The number that hexadecimal digits denote, read after a number `acc`. -/
def hexNumber? (acc : Nat) : List Char → Option Nat
  | [] => some acc
  | c :: cs => (Json.hexValue? c).bind fun digit => hexNumber? (acc * 16 + digit) cs

/-- Reads 32 digits without dashes. -/
def readPlain? (cs : List Char) : Option Guid :=
  if cs.length = 32 then (hexNumber? 0 cs).map fun n => ⟨BitVec.ofNat 128 n⟩ else none

/-- Reads the grouped form. -/
def readGrouped? (cs : List Char) : Option Guid :=
  let digits := cs.filter (· ≠ '-')
  if cs.length = 36 ∧ group digits = cs then readPlain? digits else none

/-- Reads any of the forms. -/
def read? (cs : List Char) : Option Guid :=
  match cs.length with
  | 32 => readPlain? cs
  | 36 => readGrouped? cs
  | 38 => match cs with
    | '{' :: rest => if rest.getLast? = some '}' then readGrouped? rest.dropLast else none
    | _ => none
  | 45 => if "urn:uuid:".toList.isPrefixOf cs then readGrouped? (cs.drop 9) else none
  | _ => none

end Guid

end RecordQuery
