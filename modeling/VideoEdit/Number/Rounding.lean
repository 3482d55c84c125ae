/-!
Rounding a quotient of natural numbers to the nearest one, a tie going to the even neighbour.
The laws bound the distance by half a unit and keep order with whole bounds.
-/
namespace VideoEdit

/-- The natural number nearest to `num / den`; a half goes to the even neighbour. -/
def roundDiv (num den : Nat) : Nat :=
  let down := num / den
  let twice := 2 * (num % den)
  if twice < den ∨ (twice = den ∧ down % 2 = 0) then down else down + 1

theorem roundDiv_bounds (num den : Nat) :
    num / den ≤ roundDiv num den ∧ roundDiv num den ≤ num / den + 1 := by
  unfold roundDiv
  dsimp only
  split <;> omega

/-- The rounded quotient stays below every whole bound of the exact one. -/
theorem roundDiv_le_of_lt_mul {num den bound : Nat} (h : num < den * bound) :
    roundDiv num den ≤ bound :=
  Nat.le_trans (roundDiv_bounds num den).2 (Nat.succ_le_of_lt (Nat.div_lt_of_lt_mul h))

end VideoEdit
