/-!
# Rounding a quotient

The integer nearest a quotient of natural numbers. The two functions differ only where the
quotient lies halfway between two integers.

* `halfEven_le`, `le_halfEven`: the rounded quotient is the floor or one more;
* `halfEven_one`: an integer rounds to itself.
-/

namespace RecordQuery

/-- The integer nearest `num / den`; a half goes to the even neighbour. -/
def halfEven (num den : Nat) : Nat :=
  let floor := num / den
  let rest := num % den
  if 2 * rest < den then floor
  else if den < 2 * rest then floor + 1
  else floor + floor % 2

/-- The integer nearest `num / den`; a half goes up. -/
def halfUp (num den : Nat) : Nat :=
  if 2 * (num % den) < den then num / den else num / den + 1

theorem le_halfEven (num den : Nat) : num / den ≤ halfEven num den := by
  unfold halfEven
  dsimp only
  split
  · exact Nat.le_refl _
  · split <;> omega

theorem halfEven_le (num den : Nat) : halfEven num den ≤ num / den + 1 := by
  unfold halfEven
  dsimp only
  split
  · omega
  · split <;> omega

theorem halfEven_one (num : Nat) : halfEven num 1 = num := by
  simp [halfEven, Nat.mod_one]

end RecordQuery
