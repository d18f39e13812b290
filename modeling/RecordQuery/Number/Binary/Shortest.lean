import RecordQuery.Number.Binary
import RecordQuery.Text.Digit

/-!
# The shortest decimal that reads back

Among the decimal numbers that round to a given binary number, the shortest ones have the fewest
significant digits, and of those the nearest is taken.

The reals that round to a number form an interval: it reaches halfway to each neighbour, and holds
its ends exactly if the number's significand is even. For one digit, two digits and so on, the two
neighbours of the number on the grid of such decimals are tested against that interval, in exact
integer arithmetic; the first grid with a hit wins.

* `Interval`: the interval, its ends and the number itself over one common denominator;
* `Interval.pick?`: the nearest point of a grid inside the interval;
* `shortest`: digits and exponent.
-/

namespace RecordQuery

/-- What to do with a number halfway between two decimals that both read back. -/
inductive DecimalTie
  /-- Take the even digit. -/
  | even
  /-- Take the greater decimal. -/
  | up
  deriving DecidableEq

/-- The reals that round to a number, all over the denominator `den`. -/
structure Interval where
  low : Nat
  value : Nat
  high : Nat
  den : Nat
  /-- Whether the ends belong to the interval. -/
  closed : Bool

namespace Interval

/-- The interval of a positive number of units. Below a power of two the spacing is half of what
it is above. -/
def ofUnits (f : Format) (units : Nat) : Interval :=
  let shift := f.spacing units
  let above := 2 ^ shift
  let below := if shift ≠ 0 ∧ units = 2 ^ (f.precision - 1 + shift) then 2 ^ (shift - 1) else above
  ⟨2 * units - below, 2 * units, 2 * units + above, 2 * 2 ^ f.unit, units / above % 2 == 0⟩

/-- The same interval, measured in multiples of `10 ^ exponent`. -/
def inPowers (i : Interval) : Int → Interval
  | .ofNat e => { i with den := i.den * 10 ^ e }
  | .negSucc e =>
    let scale := 10 ^ (e + 1)
    { i with low := i.low * scale, value := i.value * scale, high := i.high * scale }

/-- Whether the integer `n` lies in the interval. -/
def holds (i : Interval) (n : Nat) : Bool :=
  if i.closed then i.low ≤ n * i.den && n * i.den ≤ i.high
  else i.low < n * i.den && n * i.den < i.high

/-- The integer in the interval that is nearest to the value, among its two neighbours. -/
def pick? (i : Interval) (tie : DecimalTie) : Option Nat :=
  let down := i.value / i.den
  let rest := i.value % i.den
  match i.holds down, i.holds (down + 1) with
  | true, true =>
    if 2 * rest < i.den then some down
    else if i.den < 2 * rest then some (down + 1)
    else match tie with
      | .even => some (down + down % 2)
      | .up => some (down + 1)
  | true, false => some down
  | false, true => some (down + 1)
  | false, false => none

end Interval

/-- A positive decimal number: `0.d₁d₂… · 10 ^ point`, without zeros at either end. -/
structure DecimalDigits where
  digits : List Char
  point : Int
  deriving DecidableEq

namespace DecimalDigits

/-- The decimal `n · 10 ^ exponent`. -/
def ofNat (n : Nat) (exponent : Int) : DecimalDigits :=
  let all := Text.natDigits n
  ⟨(all.reverse.dropWhile (· == '0')).reverse, exponent + all.length⟩

end DecimalDigits

/-- A power of ten at or above `num / den`, and at most a hundred times as great. -/
def powerAbove (num den : Nat) : Int :=
  if den ≤ num then (Text.natDigits (num / den)).length
  else 1 - ((Text.natDigits (den / num)).length : Int) + 1

/-- Tries the grids `10 ^ exponent`, `10 ^ (exponent - 1)` and so on. -/
def shortestFrom (i : Interval) (tie : DecimalTie) : Nat → Int → DecimalDigits
  | 0, exponent => .ofNat (halfEven (i.inPowers exponent).value (i.inPowers exponent).den) exponent
  | tries + 1, exponent =>
    match (i.inPowers exponent).pick? tie with
    | some n => if n = 0 then shortestFrom i tie tries (exponent - 1) else .ofNat n exponent
    | none => shortestFrom i tie tries (exponent - 1)

/-- The shortest decimal that rounds to a positive number of units. Twenty grids reach 18 digits,
and 17 are enough for any number of 64 bits. -/
def shortest (f : Format) (tie : DecimalTie) (units : Nat) : DecimalDigits :=
  let i := Interval.ofUnits f units
  shortestFrom i tie 20 (powerAbove i.value i.den)

end RecordQuery
