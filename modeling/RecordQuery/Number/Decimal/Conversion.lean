import RecordQuery.Number.Decimal

/-!
# Decimals and binary numbers

* `Decimal.toDouble` is the number of 64 bits for a decimal. Integers are rounded once. Otherwise
  the integral part and the fraction are divided out and added in binary, and the sum is rounded
  back to a whole number of `10 ^ -scale`; so the last bit can differ from the nearest number.
* `Decimal.ofBinary?` is the decimal for a binary number. An integral number in range is taken over
  as it is. Otherwise the significand is divided by two as often as needed, with a loss where the
  magnitude would pass its bound; then digits beyond the precision of the format are rounded away,
  and zeros at the end are dropped.
-/

namespace RecordQuery.Decimal

/-! ## To binary -/

/-- The 64-bit number for a decimal. -/
def toDouble (d : Decimal) : Double :=
  if d.scale = 0 then .ofInt .double (if d.negative then -d.mantissa else d.mantissa)
  else
    let power : Nat := 10 ^ d.scale
    let whole : Double := .ofInt .double (d.mantissa / power : Nat)
    let fraction : Double :=
      (Binary.ofInt .double (d.mantissa % power : Nat)).div (.ofInt .double power)
    let magnitude :=
      if fraction.isZero then whole
      else (((whole.add fraction).mul (.ofInt .double power)).roundAway).div (.ofInt .double power)
    if d.negative then magnitude.neg else magnitude

/-! ## From binary

A magnitude below the bound with its scale, on its way to a decimal. -/

/-- Divides by two, `count` times: by halving the magnitude where it is even or too large to grow,
and otherwise by taking it times five with one more decimal. -/
def divideByTwo : Nat → Nat × Nat → Nat × Nat
  | 0, n => n
  | count + 1, (m, scale) =>
    if m % 2 = 0 then divideByTwo count (m / 2, scale)
    else if 5 * m < decimalBound then divideByTwo count (5 * m, scale + 1)
    else divideByTwo count (m / 2, scale)

/-- A tenth, rounded, a half going up. -/
def tenth (m : Nat) : Nat := halfUp m 10

/-- Drops `count` decimals that are beyond the greatest scale. A number that vanishes is zero
without decimals. -/
def dropDecimals : Nat → Nat × Nat → Nat × Nat
  | 0, n => n
  | count + 1, (m, scale) =>
    if m / 10 = 0 then (0, 0) else dropDecimals count (tenth m, scale - 1)

/-- The number of bits that a magnitude may have beside decimals: 24 bits for numbers of 32 bits,
and 52 for numbers of 64 bits. -/
def significantBits (f : Format) : Nat := if f = .single then 24 else f.precision - 1

/-- Rounds decimals away while the magnitude has more than `bits` bits. -/
def dropExcess (bits : Nat) : Nat → Nat → Nat × Nat
  | m, 0 => (m, 0)
  | m, scale + 1 => if 2 ^ bits ≤ m then dropExcess bits (tenth m) scale else (m, scale + 1)

/-- Drops zeros at the end. -/
def dropZeroDecimals : Nat → Nat → Nat × Nat
  | m, 0 => (m, 0)
  | m, scale + 1 => if m % 10 = 0 then dropZeroDecimals (m / 10) scale else (m, scale + 1)

/-- The decimal for a binary number, if it is finite and in range. -/
def ofBinary? {f : Format} : Binary f → Option Decimal
  | .nan => none
  | .infinite _ => none
  | .finite negative units _ =>
    if units = 0 then ofParts? negative 0 0
    else
      let shift : Nat := f.spacing units
      if f.unit ≤ shift then ofParts? negative (units / 2 ^ f.unit) 0
      else
        let (m, scale) := divideByTwo (f.unit - shift) (units / 2 ^ shift, 0)
        let (m, scale) := dropDecimals (scale - maxScale) (m, scale)
        let (m, scale) := dropExcess (significantBits f) m scale
        let (m, scale) := dropZeroDecimals m scale
        ofParts? negative m scale

end RecordQuery.Decimal
