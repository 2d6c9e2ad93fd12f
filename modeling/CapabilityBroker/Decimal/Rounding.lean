/-!
# Rounding a quotient

The whole number nearest to a quotient of natural numbers, where a
quotient half way between two goes to the even one. The main statements
say that the result is within half a unit and that a whole quotient is
kept.
-/

namespace CapabilityBroker

namespace Decimal

/-- The whole number nearest to `num / den`, a half going to the even
neighbour. -/
def roundHalfEven (num den : Nat) : Nat :=
  let q := num / den
  let r := num % den
  if 2 * r < den then q
  else if den < 2 * r then q + 1
  else if q % 2 = 0 then q
  else q + 1

/-- The result lies at most half a unit below the quotient. -/
theorem two_mul_le_roundHalfEven {num den : Nat} (h : 0 < den) :
    2 * num ≤ 2 * (den * roundHalfEven num den) + den := by
  have hdiv := Nat.div_add_mod num den
  have hmod := Nat.mod_lt num h
  have hsucc : den * (num / den + 1) = den * (num / den) + den := Nat.mul_succ ..
  unfold roundHalfEven
  simp only
  repeat' split
  all_goals omega

/-- And at most half a unit above it. -/
theorem two_mul_roundHalfEven_le {num den : Nat} (h : 0 < den) :
    2 * (den * roundHalfEven num den) ≤ 2 * num + den := by
  have hdiv := Nat.div_add_mod num den
  have hmod := Nat.mod_lt num h
  have hsucc : den * (num / den + 1) = den * (num / den) + den := Nat.mul_succ ..
  unfold roundHalfEven
  simp only
  repeat' split
  all_goals omega

/-- A whole quotient is kept. -/
theorem roundHalfEven_mul {n den : Nat} (h : 0 < den) : roundHalfEven (n * den) den = n := by
  simp [roundHalfEven, Nat.mul_div_cancel n h, h]

example : roundHalfEven 5 2 = 2 ∧ roundHalfEven 7 2 = 4 ∧ roundHalfEven 8 3 = 3 := by decide

end Decimal

end CapabilityBroker
