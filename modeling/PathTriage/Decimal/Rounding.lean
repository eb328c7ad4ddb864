import PathTriage.Decimal.Power

/-!
Rounding a quotient of natural numbers to the nearest whole number, with ties to the even
neighbour. Every decimal text and every conversion to a binary number below rests on this one rule.
-/

namespace PathTriage.Decimal

/-- The natural number nearest to `num / den`; a quotient half way between two goes to the even
    one. -/
def roundDiv (num den : Nat) : Nat :=
  let floor := num / den
  let twice := 2 * (num % den)
  if twice < den then floor
  else if den < twice then floor + 1
  else if floor % 2 = 0 then floor
  else floor + 1

/-- The rounded quotient is the floor or its successor. -/
theorem roundDiv_eq_or (num den : Nat) :
    roundDiv num den = num / den ∨ roundDiv num den = num / den + 1 := by
  unfold roundDiv
  dsimp only
  split
  · exact .inl rfl
  · split
    · exact .inr rfl
    · split
      · exact .inl rfl
      · exact .inr rfl

end PathTriage.Decimal
