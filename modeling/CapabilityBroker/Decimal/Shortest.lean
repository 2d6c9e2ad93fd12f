import CapabilityBroker.Decimal.Binary64
/-!
# The shortest decimal that reads back

A binary64 number stands for every real that rounds to it, an interval
around its exact value. Its shortest decimal is the one with the fewest
digits inside that interval, and of several with that many digits the one
nearest to the exact value.

The search is over decimal grids. On the grid of `10 ^ e` only the two
neighbours of the value need a test: if any point of the grid lies in the
interval, so does one of them.
-/

namespace CapabilityBroker

/-- The digits of a positive decimal, most significant first, and the
power of ten its first digit counts. -/
structure DecimalDigits where
  digits : List Nat
  power : Int
  deriving DecidableEq, Repr

namespace Decimal

/-- The decimal digits of a number, most significant first. -/
def digitsOf (n : Nat) : List Nat :=
  (Nat.toDigits 10 n).map fun c => c.toNat - 48

/-- A list of digits without the zeros it ends with. -/
def dropTrailingZeros (ds : List Nat) : List Nat :=
  (ds.reverse.dropWhile (· == 0)).reverse

/-- The interval of reals that round to a number, in quarters of its last
binary place: the lower end, the value, the upper end, and the place. The
lower end is nearer when the number is the least of its binade. -/
structure RoundingInterval where
  lower : Nat
  value : Nat
  upper : Nat
  place : Int
  closed : Bool

/-- The interval of a positive binary64 number. Its ends round to it
exactly when its significand is even. -/
def RoundingInterval.of (b : Binary64) : RoundingInterval where
  lower := if b.significand = Nat.pow 2 52 && b.exponent != -1074
    then 4 * b.significand - 1 else 4 * b.significand - 2
  value := 4 * b.significand
  upper := 4 * b.significand + 2
  place := b.exponent - 2
  closed := b.significand % 2 == 0

/-- Whether `d · 10 ^ e` lies in the interval. -/
def RoundingInterval.holds (i : RoundingInterval) (d : Nat) (e : Int) : Bool :=
  let (tn, td) := Binary64.tenPow e
  let (bn, bd) := Binary64.twoPow i.place
  let point := d * tn * bd
  let lower := i.lower * bn * td
  let upper := i.upper * bn * td
  if i.closed then lower ≤ point && point ≤ upper else lower < point && point < upper

/-- The number of the two neighbours of the value on the grid of `10 ^ e`
that the shortest decimal may take, nearest first. -/
def RoundingInterval.candidate? (i : RoundingInterval) (e : Int) : Option Nat :=
  let (tn, td) := Binary64.tenPow e
  let (bn, bd) := Binary64.twoPow i.place
  let num := i.value * bn * td
  let den := tn * bd
  let below := num / den
  let rest := num % den
  let nearer := if 2 * rest < den then below
    else if den < 2 * rest then below + 1
    else if below % 2 = 0 then below else below + 1
  let farther := if nearer = below then below + 1 else below
  if i.holds nearer e then some nearer
  else if i.holds farther e then some farther
  else none

/-- How many digits a positive number has before its decimal point; zero
or negative when it begins with zeros after the point. Every binary64
number is at least `10 ^ -350`, so shifting by that many places loses
no leading digit. -/
def leadingPlace (b : Binary64) : Int :=
  let (num, den) := b.magnitude
  ((Nat.toDigits 10 (num * Nat.pow 10 350 / den)).length : Int) - 350

/-- The shortest decimal of a positive binary64 number. Seventeen digits
always suffice. -/
def shortest (b : Binary64) : DecimalDigits :=
  let interval := RoundingInterval.of b
  let place := leadingPlace b
  go interval place 17 1
where
  go (interval : RoundingInterval) (place : Int) : Nat → Nat → DecimalDigits
    | 0, _ => ⟨[], 0⟩
    | fuel + 1, n =>
      match interval.candidate? (place - n) with
      | some d =>
        let ds := digitsOf d
        ⟨dropTrailingZeros ds, place - n + ds.length - 1⟩
      | none => go interval place fuel (n + 1)

end Decimal

/-- How a format writes a floating-point number once its digits are
chosen: positionally while the power of its first digit lies in a range,
and otherwise with an exponent. -/
structure FloatLayout where
  leastPositional : Int
  greatestPositional : Int
  plusInExponent : Bool

namespace FloatLayout

/-- The characters of a list of digits. -/
def digitChars (ds : List Nat) : List Char :=
  ds.map fun d => Char.ofNat (48 + d)

/-- The text of a positive decimal. A whole number written positionally
keeps one zero after the point. -/
def positive (layout : FloatLayout) (d : DecimalDigits) : List Char :=
  if layout.leastPositional ≤ d.power && d.power ≤ layout.greatestPositional then
    if d.power < 0 then
      '0' :: '.' :: (List.replicate ((-d.power).toNat - 1) '0' ++ digitChars d.digits)
    else
      let whole := d.power.toNat + 1
      if d.digits.length ≤ whole then
        digitChars d.digits ++ List.replicate (whole - d.digits.length) '0' ++ ['.', '0']
      else
        digitChars (d.digits.take whole) ++ '.' :: digitChars (d.digits.drop whole)
  else
    let mantissa := match digitChars d.digits with
      | [] => []
      | [c] => [c]
      | c :: rest => c :: '.' :: rest
    let sign := if d.power < 0 then ['-'] else if layout.plusInExponent then ['+'] else []
    mantissa ++ 'e' :: sign ++ Nat.toDigits 10 d.power.natAbs

/-- The text of a finite number; nothing for an infinity or a value that
is not a number. -/
def text? (layout : FloatLayout) (x : Float) : Option (List Char) :=
  (Binary64.ofFloat? x).map fun b =>
    let sign := if b.negative then ['-'] else []
    if b.significand = 0 then sign ++ ['0', '.', '0']
    else sign ++ layout.positive (Decimal.shortest b)

end FloatLayout

end CapabilityBroker
