import CapabilityBroker.Json.Basic
/-!
# Number literals

A JSON number literal taken apart into its digits, and the number it
stands for. A literal of digits alone is an integer while it fits into 64
bits. Any other literal is a floating-point number computed in two steps:
its leading digits are gathered into a 64-bit significand for as long as
they fit, and the significand is scaled by one multiplication with, or
division by, a power of ten.
-/

namespace CapabilityBroker

/-- A number literal: a sign, the digits before the point, the digits
after it if there is one, and the exponent if there is one, given by its
sign and its digits. -/
structure Numeral where
  negative : Bool
  whole : List Nat
  fraction : Option (List Nat)
  exponent : Option (Bool × List Nat)
  deriving DecidableEq, Repr

namespace Numeral

/-- The number a list of decimal digits stands for. -/
def ofDigits (ds : List Nat) : Nat := ds.foldl (fun n d => 10 * n + d) 0

/-- The greatest significand. -/
def significandLimit : Nat := UInt64.size - 1

/-- The greatest magnitude of a negative integer. -/
def magnitudeLimit : Nat := 9223372036854775808

/-- Digits are appended to a significand until one does not fit; what
remains of the digits is left over. -/
def gather (significand : Nat) : List Nat → Nat × List Nat
  | [] => (significand, [])
  | d :: ds =>
    if significand * 10 + d ≤ significandLimit then gather (significand * 10 + d) ds
    else (significand, d :: ds)

/-- The powers of ten that one scaling step may use. -/
def powerOfTen (n : Nat) : Float := Float.ofScientific 1 false n

/-- `significand · 10 ^ exponent`. Dividing a value out of the reach of
one step goes on from its `10 ^ 308`th part, which three steps bring to
zero; multiplying one is out of range. -/
def scale (exponent : Int) (x : Float) : Nat → Option Float
  | 0 => some x
  | steps + 1 =>
    if exponent.natAbs ≤ 308 then
      if 0 ≤ exponent then
        let y := x * powerOfTen exponent.natAbs
        if y.isInf then none else some y
      else some (x / powerOfTen exponent.natAbs)
    else if x == 0.0 then some x
    else if 0 ≤ exponent then none
    else scale (exponent + 308) (x / powerOfTen 308) steps

/-- A sign put before a number. -/
def signed (negative : Bool) (x : Float) : Float := if negative then -x else x

/-- The floating-point number of a significand and an exponent. -/
def scaled (negative : Bool) (significand : Nat) (exponent : Int) : Option Json.Number :=
  (scale exponent significand.toUInt64.toFloat 3).map fun x => .float (signed negative x)

/-- The greatest exponent that is read as one. -/
def exponentLimit : Nat := 2147483647

/-- The number a literal stands for, unless it is out of range. A minus
sign before zero makes it a floating-point number, since no integer is
minus zero. -/
def value? (n : Numeral) : Option Json.Number :=
  let (s, excess) := gather 0 n.whole
  match n.fraction, n.exponent with
  | none, none =>
    if excess.isEmpty then
      if !n.negative then some (.integer s)
      else if s = 0 ∨ magnitudeLimit < s then some (.float (-s.toUInt64.toFloat))
      else some (.integer (-(s : Int)))
    else scaled n.negative s excess.length
  | fraction, exponent =>
    let after := fraction.getD []
    let (s, unread) := gather s after
    let place : Int := excess.length - (after.length - unread.length : Nat)
    match exponent with
    | none => scaled n.negative s place
    | some (below, ds) =>
      let e := ofDigits ds
      if exponentLimit < e then
        if s ≠ 0 ∧ !below then none else some (.float (signed n.negative 0.0))
      else scaled n.negative s (if below then place - e else place + e)

end Numeral

end CapabilityBroker
