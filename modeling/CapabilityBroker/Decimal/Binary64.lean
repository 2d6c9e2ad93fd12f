/-!
# Binary64 values, exactly

A finite binary64 number is a signed significand times a power of two.
This file takes the number apart and gives it back as a quotient of
natural numbers, so that rounding and printing can be done in exact
arithmetic.
-/

namespace CapabilityBroker

/-- A finite binary64 number: `significand · 2 ^ exponent`, negated if
`negative`. -/
structure Binary64 where
  negative : Bool
  significand : Nat
  exponent : Int
  deriving DecidableEq, Repr

namespace Binary64

/-- Taking a number apart. An infinity and a value that is not a number
have no parts. -/
def ofFloat? (x : Float) : Option Binary64 :=
  let bits := x.toBits.toNat
  let negative := bits / Nat.pow 2 63 == 1
  let biased : Nat := bits / Nat.pow 2 52 % 2048
  let fraction := bits % Nat.pow 2 52
  if biased = 2047 then none
  else if biased = 0 then some ⟨negative, fraction, -1074⟩
  else some ⟨negative, fraction + Nat.pow 2 52, (biased : Int) - 1075⟩

/-- `2 ^ e` as a quotient. -/
def twoPow (e : Int) : Nat × Nat :=
  if 0 ≤ e then (Nat.pow 2 e.toNat, 1) else (1, Nat.pow 2 (-e).toNat)

/-- `10 ^ e` as a quotient. -/
def tenPow (e : Int) : Nat × Nat :=
  if 0 ≤ e then (Nat.pow 10 e.toNat, 1) else (1, Nat.pow 10 (-e).toNat)

/-- The size of a number, without its sign, as a quotient. -/
def magnitude (b : Binary64) : Nat × Nat :=
  let (p, q) := twoPow b.exponent
  (b.significand * p, q)

end Binary64

end CapabilityBroker
