import RecordQuery.Number.Rounding
import RecordQuery.Number.Integer
import RecordQuery.Number.Binary.Text

/-!
# Decimal numbers

A decimal number is a whole number of `10 ^ -scale`, with a magnitude below `2 ^ 96` and a scale of
at most 28. The scale is part of the number as it is written, not of its value: `1.5` and `1.50` are
equal and print differently.

* `Decimal.position` is the value in units of `10 ^ -28`, which decides order and equality;
* `Decimal.display` writes exactly `scale` decimals;
* `Decimal.add?` and `Decimal.divNat?` round to as many decimals as fit, and refuse a result whose
  integral part is too large.
-/

namespace RecordQuery

/-- Decimal magnitudes lie below this bound. -/
def decimalBound : Nat := 2 ^ (96 : Nat)

/-- The greatest number of decimals. -/
def maxScale : Nat := 28

/-- A decimal number with its scale. -/
structure Decimal where
  negative : Bool
  mantissa : Nat
  scale : Nat
  mantissa_lt : mantissa < decimalBound
  scale_le : scale ≤ maxScale
  deriving DecidableEq

namespace Decimal

/-- A decimal from its parts, if they are in range. -/
def ofParts? (negative : Bool) (mantissa scale : Nat) : Option Decimal :=
  if h : mantissa < decimalBound ∧ scale ≤ maxScale then
    some ⟨negative, mantissa, scale, h.1, h.2⟩
  else none

/-- Zero without decimals. -/
def zero : Decimal := ⟨false, 0, 0, by decide, by decide⟩

/-- A 64-bit integer as a decimal. -/
def ofInt64 (n : Int64) : Decimal where
  negative := n.toInt < 0
  mantissa := n.toInt.natAbs
  scale := 0
  mantissa_lt := by
    have lower := n.le_toInt
    have upper := n.toInt_lt
    have : n.toInt.natAbs ≤ 0x8000000000000000 := by omega
    exact Nat.lt_of_le_of_lt this (by decide)
  scale_le := by decide

def isZero (d : Decimal) : Bool := d.mantissa == 0

/-- The value in units of `10 ^ -28`. -/
def position (d : Decimal) : Int :=
  let units : Nat := d.mantissa * 10 ^ (maxScale - d.scale)
  if d.negative then -units else units

/-- Order by value. -/
def compare (a b : Decimal) : Ordering := Ord.compare a.position b.position

/-- Whether the value has no fraction. -/
def isIntegral (d : Decimal) : Bool := d.mantissa % 10 ^ d.scale == 0

/-- The number with exactly `scale` decimals. -/
def display (d : Decimal) : String :=
  String.ofList (Binary.withSign d.negative (Binary.placesDigits d.scale d.mantissa))

/-! ## Fitting a result -/

/-- Drops `dropped` or more of the digits of a magnitude until it is in range. At most `scale` more
digits can go. -/
def fitFrom (magnitude : Nat) : Nat → Nat → Option (Nat × Nat)
  | scale, dropped =>
    let kept := halfEven magnitude (10 ^ dropped)
    if kept < decimalBound then some (kept, scale)
    else match scale with
      | 0 => none
      | scale + 1 => fitFrom magnitude scale (dropped + 1)

/-- The decimal nearest `magnitude · 10 ^ -scale` that keeps as many decimals as fit. Zero is
positive. -/
def fit? (negative : Bool) (magnitude scale : Nat) : Option Decimal :=
  (fitFrom magnitude scale 0).bind fun (kept, scale) => ofParts? (negative && kept != 0) kept scale

/-! ## Addition -/

/-- The sum. A zero leaves the other number as it is, with its scale. -/
def add? (a b : Decimal) : Option Decimal :=
  if a.isZero then some b
  else if b.isZero then some a
  else
    let scale := max a.scale b.scale
    let sum := Binary.signed a.negative (a.mantissa * 10 ^ (scale - a.scale))
      + Binary.signed b.negative (b.mantissa * 10 ^ (scale - b.scale))
    fit? (sum < 0) sum.natAbs scale

/-! ## Division by a natural number

The quotient is developed in blocks of up to nine decimals, as long as it stays in range. If it
comes out even before the last decimal, some of the zeros at its end are removed afterwards: eight
at a time while the magnitude is a multiple of `2 ^ 32`, then four, two and one, each at most
once. -/

/-- The largest block of at most `limit` decimals by which a quotient can be extended in range. -/
def blockSize (quotient : Nat) : Nat → Nat
  | 0 => 0
  | limit + 1 =>
    if quotient * 10 ^ (limit + 1) < decimalBound then limit + 1 else blockSize quotient limit

/-- A quotient that was rounded up or extended past the bound loses its last decimal. -/
def shedDecimal (quotient scale : Nat) (sticky : Bool) : Option (Nat × Nat) :=
  match scale with
  | 0 => none
  | scale + 1 =>
    let kept := quotient / 10
    let rest := quotient % 10
    some (if 5 < rest || (rest == 5 && (sticky || kept % 2 == 1)) then kept + 1 else kept, scale)

/-- Develops a quotient with its remainder; every step adds at least one decimal. -/
def develop (divisor : Nat) : Nat → Nat → Nat → Nat → Option (Nat × Nat)
  | 0, quotient, _, scale => some (quotient, scale)
  | steps + 1, quotient, rest, scale =>
    if rest = 0 then some (quotient, scale)
    else
      let block := blockSize quotient (min 9 (maxScale - scale))
      if block = 0 then
        let up := divisor < 2 * rest || (2 * rest == divisor && quotient % 2 == 1)
        if !up then some (quotient, scale)
        else if quotient + 1 < decimalBound then some (quotient + 1, scale)
        else shedDecimal (quotient + 1) scale true
      else
        let scaled := rest * 10 ^ block
        let quotient := quotient * 10 ^ block + scaled / divisor
        if quotient < decimalBound then
          develop divisor steps quotient (scaled % divisor) (scale + block)
        else shedDecimal quotient (scale + block) (scaled % divisor != 0)

/-- Removes `count` zeros from the end of a multiple of `modulus`, if there are that many. -/
def dropZeros (count modulus : Nat) (n : Nat × Nat) : Nat × Nat :=
  if n.1 % modulus == 0 && count ≤ n.2 && n.1 % 10 ^ count == 0 then (n.1 / 10 ^ count, n.2 - count)
  else n

/-- Removes zeros from the end of a developed quotient. -/
def tidy (n : Nat × Nat) : Nat × Nat :=
  let thrice := dropZeros 8 UInt32.size (dropZeros 8 UInt32.size (dropZeros 8 UInt32.size n))
  dropZeros 1 2 (dropZeros 2 4 (dropZeros 4 16 thrice))

/-- The quotient by a natural number; `none` for a division by zero. -/
def divNat? (d : Decimal) (divisor : Nat) : Option Decimal :=
  if divisor = 0 then none
  else if d.isZero then some zero
  else
    let quotient := d.mantissa / divisor
    let rest := d.mantissa % divisor
    (develop divisor 30 quotient rest d.scale).bind fun developed =>
      let (mantissa, scale) := if rest = 0 then developed else tidy developed
      ofParts? (d.negative && mantissa != 0) mantissa scale

end Decimal

end RecordQuery
