import RecordQuery.Number.Power
import RecordQuery.Number.Rounding

/-!
# Binary floating-point numbers

A finite number of a binary interchange format is a whole number of units, the unit being the
smallest positive number of the format: `units / 2 ^ unit`. So exact values are compared and added
as integers, and every operation is its exact result rounded to the nearest representable number,
a tie going to the even significand.

* `Format`, with `Format.single` (32 bits) and `Format.double` (64 bits);
* `Format.Representable`: which numbers of units the format holds;
* `Format.round`: the nearest such number, with `Format.round_representable`;
* `Binary`: NaN, the infinities and the finite numbers, with arithmetic and comparison.
-/

namespace RecordQuery

/-- A binary interchange format. -/
structure Format where
  /-- Bits of the significand. -/
  precision : Nat
  /-- The unit is `2 ^ -unit`. -/
  unit : Nat
  /-- Finite numbers lie below `2 ^ bound` units. -/
  bound : Nat
  precision_pos : 0 < precision
  deriving DecidableEq

namespace Format

/-- The format of 32 bits. -/
def single : Format := ⟨24, 149, 277, by decide⟩

/-- The format of 64 bits. -/
def double : Format := ⟨53, 1074, 2098, by decide⟩

/-- The numbers of units that a format holds: a significand of `precision` bits, shifted. -/
structure Representable (f : Format) (units : Nat) : Prop where
  lt_bound : units < 2 ^ f.bound
  exact : ∃ significand shift : Nat, significand < 2 ^ f.precision ∧ units = significand * 2 ^ shift

/-- The distance, as a power of two, between representable numbers at `units`. -/
def spacing (f : Format) (units : Nat) : Nat :=
  if units < 2 ^ f.precision then 0 else units.log2 + 1 - f.precision

/-- The number of units nearest `num / den`, not yet checked against the bound. -/
def round (f : Format) (num den : Nat) : Nat :=
  let shift := f.spacing (num / den)
  halfEven num (den * 2 ^ shift) * 2 ^ shift

theorem lt_two_pow_spacing (f : Format) (units : Nat) :
    units / 2 ^ f.spacing units < 2 ^ f.precision := by
  unfold spacing
  split
  · simpa using ‹_›
  · next h =>
    have hpos : units ≠ 0 := by
      rintro rfl
      exact h (Nat.two_pow_pos _)
    rw [Nat.div_lt_iff_lt_mul (Nat.two_pow_pos _), ← Nat.pow_add]
    refine Nat.lt_of_lt_of_le Nat.lt_log2_self (Nat.pow_le_pow_right (by decide) ?_)
    omega

/-- A rounded number below the bound is representable. -/
theorem round_representable (f : Format) {num den : Nat} (h : f.round num den < 2 ^ f.bound) :
    f.Representable (f.round num den) := by
  refine ⟨h, ?_⟩
  have le : halfEven num (den * 2 ^ f.spacing (num / den)) ≤ 2 ^ f.precision := by
    have h1 := halfEven_le num (den * 2 ^ f.spacing (num / den))
    have h2 := f.lt_two_pow_spacing (num / den)
    rw [Nat.div_div_eq_div_mul] at h2
    omega
  rcases Nat.lt_or_eq_of_le le with hlt | heq
  · exact ⟨_, _, hlt, rfl⟩
  · refine ⟨1, f.precision + f.spacing (num / den), ?_, ?_⟩
    · exact Nat.one_lt_two_pow (Nat.pos_iff_ne_zero.1 f.precision_pos)
    · rw [round, heq, Nat.one_mul, Nat.pow_add]

end Format

/-- A number of a binary format. -/
inductive Binary (f : Format)
  /-- Not a number. -/
  | nan
  | infinite (negative : Bool)
  /-- A number of units with a sign; zero has a sign too. -/
  | finite (negative : Bool) (units : Nat) (representable : f.Representable units)
  deriving DecidableEq

/-- A number of 32 bits. -/
abbrev Single := Binary Format.single

/-- A number of 64 bits. -/
abbrev Double := Binary Format.double

namespace Binary

variable {f : Format}

/-! ## Building numbers -/

/-- The number nearest `num / den` units; infinite beyond the bound. -/
def ofUnitRatio (f : Format) (negative : Bool) (num den : Nat) : Binary f :=
  if h : f.round num den < 2 ^ f.bound then
    .finite negative (f.round num den) (f.round_representable h)
  else .infinite negative

/-- The number nearest `num / den`. -/
def ofRatio (f : Format) (negative : Bool) (num den : Nat) : Binary f :=
  ofUnitRatio f negative (num * 2 ^ f.unit) den

/-- The number nearest an integer. -/
def ofInt (f : Format) (n : Int) : Binary f := ofRatio f (n < 0) n.natAbs 1

/-- Zero with a sign. -/
def zero (f : Format) (negative : Bool) : Binary f := ofUnitRatio f negative 0 1

/-- The nearest number of another format. -/
def convert (g : Format) : Binary f → Binary g
  | .nan => .nan
  | .infinite negative => .infinite negative
  | .finite negative units _ => ofRatio g negative units (2 ^ f.unit)

/-! ## Reading numbers -/

/-- The sign; NaN counts as positive. -/
def isNegative : Binary f → Bool
  | .nan => false
  | .infinite negative => negative
  | .finite negative _ _ => negative

def isFinite : Binary f → Bool
  | .finite _ _ _ => true
  | _ => false

/-- Whether a number is finite and has no fraction. -/
def isIntegral : Binary f → Bool
  | .finite _ units _ => units % 2 ^ f.unit == 0
  | _ => false

/-- The units of a finite number with their sign. -/
def signed (negative : Bool) (units : Nat) : Int := if negative then -units else units

/-- The place of a number in the order of all numbers that are not NaN, in units. -/
def position? : Binary f → Option Int
  | .nan => none
  | .infinite negative => some (signed negative (2 ^ f.bound))
  | .finite negative units _ => some (signed negative units)

/-- Order by value; NaN has no place in it, and the zeros are equal. -/
def compare? (x y : Binary f) : Option Ordering :=
  match x.position?, y.position? with
  | some a, some b => some (compare a b)
  | _, _ => none

/-- Equality by value: NaN equals nothing, and the zeros are equal. -/
def sameValue (x y : Binary f) : Bool := x.compare? y == some .eq

/-- Whether a number equals zero. -/
def isZero (x : Binary f) : Bool := x.position? == some 0

/-- The integer nearest a finite number; a half goes to the even neighbour. -/
def nearestInt? : Binary f → Option Int
  | .finite negative units _ =>
    let n := halfEven units (2 ^ f.unit)
    some (if negative then -n else n)
  | _ => none

/-- The integral number nearest a number; a half goes away from zero. -/
def roundAway : Binary f → Binary f
  | .finite negative units _ => ofRatio f negative (halfUp units (2 ^ f.unit)) 1
  | x => x

/-! ## Arithmetic -/

def neg : Binary f → Binary f
  | .nan => .nan
  | .infinite negative => .infinite (!negative)
  | .finite negative units h => .finite (!negative) units h

/-- The sum. An exact sum of zero is negative only if both numbers are. -/
def add : Binary f → Binary f → Binary f
  | .nan, _ | _, .nan => .nan
  | .infinite a, .infinite b => if a == b then .infinite a else .nan
  | .infinite a, _ => .infinite a
  | _, .infinite b => .infinite b
  | .finite a m _, .finite b n _ =>
    let sum := signed a m + signed b n
    if sum = 0 then zero f (a && b) else ofUnitRatio f (sum < 0) sum.natAbs 1

/-- The product. -/
def mul : Binary f → Binary f → Binary f
  | .nan, _ | _, .nan => .nan
  | .infinite a, .infinite b => .infinite (a != b)
  | .infinite a, .finite b n _ | .finite b n _, .infinite a =>
    if n = 0 then .nan else .infinite (a != b)
  | .finite a m _, .finite b n _ => ofUnitRatio f (a != b) (m * n) (2 ^ f.unit)

/-- The quotient. -/
def div : Binary f → Binary f → Binary f
  | .nan, _ | _, .nan => .nan
  | .infinite _, .infinite _ => .nan
  | .infinite a, .finite b _ _ => .infinite (a != b)
  | .finite a _ _, .infinite b => zero f (a != b)
  | .finite a m _, .finite b n _ =>
    if n = 0 then (if m = 0 then .nan else .infinite (a != b))
    else ofRatio f (a != b) m n

/-- The sum of a list, from the left. Adding starts at negative zero, which keeps the sign of a
list of negative zeros. -/
def sum (xs : List (Binary f)) : Binary f := xs.foldl add (zero f true)

end Binary

end RecordQuery
