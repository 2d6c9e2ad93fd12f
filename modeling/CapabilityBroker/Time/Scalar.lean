import CapabilityBroker.Decimal.Binary64
import CapabilityBroker.Decimal.Rounding
import CapabilityBroker.Time.Duration
/-!
# The arithmetic of rates

The token bucket and the backoff delay multiply and divide times. They
are written over any arithmetic with the operations below, and there are
two: binary64 floating point, in which the library runs, and the exact
rationals, in which its laws are exact.
-/

namespace CapabilityBroker

/-- What the computations on rates and delays ask of their numbers. -/
class Scalar (α : Type) extends Add α, Sub α, Mul α, Div α where
  /-- A whole number. -/
  ofNat : Nat → α
  /-- Whether one number is below another. -/
  below : α → α → Bool
  /-- Whether one number is at most another. -/
  atMost : α → α → Bool
  /-- Whether a number is neither infinite nor undefined. -/
  finite : α → Bool
  /-- The greatest whole number not above. -/
  floor : α → α
  /-- The whole part of a number that is not negative, and zero of one that is. -/
  wholePart : α → Nat
  /-- A span of time in seconds. -/
  seconds : Nat → α
  /-- The span of time nearest to a number of seconds, zero if that is negative. -/
  span : α → Nat

namespace Scalar

variable {α : Type} [Scalar α]

/-- The lesser of two numbers. -/
def least (a b : α) : α := if below b a then b else a

/-- A number multiplied with itself `n` times, by squaring: the factors
are the squares that the binary digits of `n` call for, least significant
first. -/
def power (a : α) (n : Nat) : α := go a (ofNat 1) n n
where
  go (square product : α) (n : Nat) : Nat → α
    | 0 => product
    | fuel + 1 =>
      let product := if n % 2 = 1 then product * square else product
      if n / 2 = 0 then product
      else go (square * square) product (n / 2) fuel

end Scalar

/-- The span nearest to a binary64 number of seconds, a half going to the
even nanosecond. -/
def Binary64.span (x : Float) : Nat :=
  match Binary64.ofFloat? x with
  | none => 0
  | some b =>
    let (num, den) := b.magnitude
    if b.negative then 0 else Decimal.roundHalfEven (num * Duration.second) den

/-- A span in binary64 seconds: its whole seconds plus the rest divided
by the nanoseconds in a second. -/
def Binary64.seconds (d : Nat) : Float :=
  (d / Duration.second).toUInt64.toFloat + (d % Duration.second).toUInt64.toFloat / 1000000000.0

/-- The greatest whole number not above a binary64 number. A number whose
last digit is worth one or more is whole, and what is left of any other
one above its point fits into its significand. -/
def Binary64.floor (x : Float) : Float :=
  match Binary64.ofFloat? x with
  | none => x
  | some b =>
    if 0 ≤ b.exponent then x
    else
      let unit := Nat.pow 2 (-b.exponent).toNat
      if b.negative then -((b.significand + (unit - 1)) / unit).toUInt64.toFloat
      else (b.significand / unit).toUInt64.toFloat

/-- Binary64 floating point. -/
instance : Scalar Float where
  ofNat n := n.toUInt64.toFloat
  below a b := a < b
  atMost a b := a ≤ b
  finite := Float.isFinite
  floor := Binary64.floor
  wholePart x := x.toUInt64.toNat
  seconds := Binary64.seconds
  span := Binary64.span

/-- The exact rationals. -/
instance : Scalar Rat where
  ofNat n := (n : Rat)
  below a b := decide (a < b)
  atMost a b := decide (a ≤ b)
  finite _ := true
  floor x := (x.floor : Rat)
  wholePart x := x.floor.toNat
  seconds d := (d : Rat) / Duration.second
  span x := if x < 0 then 0 else Decimal.roundHalfEven (x.num.toNat * Duration.second) x.den

end CapabilityBroker
