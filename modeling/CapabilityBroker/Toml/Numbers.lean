import CapabilityBroker.Toml.Basic
import CapabilityBroker.Toml.Strings
/-!
# TOML numbers, dates and times

Numbers may have single underscores between their digits. An integer has
64 bits; a decimal one has no leading zeros, and one in base sixteen, eight
or two has no sign. Of floating-point numbers the greatest positive ones
are refused where they would be infinite, and no others.
-/

namespace CapabilityBroker

namespace Toml

/-! ## Digits -/

/-- The digits after the first one, each of which may have an underscore
before it, and what follows them. An underscore that no digit follows is
refused. -/
def readMoreDigits (base : Nat) : List Char → Option (List Nat × List Char)
  | [] => some ([], [])
  | '_' :: rest =>
    match rest with
    | [] => none
    | c :: rest => do
      let d ← digitIn? base c
      let (ds, rest) ← readMoreDigits base rest
      return (d :: ds, rest)
  | c :: rest =>
    match digitIn? base c with
    | none => some ([], c :: rest)
    | some d => (readMoreDigits base rest).map fun r => (d :: r.1, r.2)

/-- At least one digit, and what follows the digits. -/
def readDigits (base : Nat) : List Char → Option (List Nat × List Char)
  | [] => none
  | c :: rest => do
    let d ← digitIn? base c
    let (ds, rest) ← readMoreDigits base rest
    return (d :: ds, rest)

/-- The number that digits stand for. -/
def ofDigits (base : Nat) (ds : List Nat) : Nat := ds.foldl (fun n d => base * n + d) 0

/-- The sign of a number, and what follows it. -/
def readSign : List Char → Bool × List Char
  | '-' :: rest => (true, rest)
  | '+' :: rest => (false, rest)
  | cs => (false, cs)

/-- The digits of a decimal number before its point: a zero alone, or
digits of which the first is not zero. -/
def readWhole : List Char → Option (List Nat × List Char)
  | '0' :: rest => some ([0], rest)
  | cs => readDigits 10 cs

/-! ## Integers -/

/-- The least number that is too large for an integer. -/
def integerBound : Int := 9223372036854775808

/-- A number of 64 bits. -/
def integer? (n : Int) : Option Toml :=
  if -integerBound ≤ n ∧ n < integerBound then some (.integer n) else none

/-- An integer in base sixteen, eight or two. -/
def readBased (base : Nat) (cs : List Char) : Option (Toml × List Char) := do
  let (ds, rest) ← readDigits base cs
  return (← integer? (ofDigits base ds), rest)

/-- An integer, and what follows it. -/
def readInteger (cs : List Char) : Option (Toml × List Char) :=
  match cs with
  | '0' :: 'x' :: rest => readBased 16 rest
  | '0' :: 'o' :: rest => readBased 8 rest
  | '0' :: 'b' :: rest => readBased 2 rest
  | _ => do
    let (negative, cs) := readSign cs
    let (ds, rest) ← readWhole cs
    let n : Int := ofDigits 10 ds
    return (← integer? (if negative then -n else n), rest)

/-! ## Floating-point numbers -/

/-- The binary64 number nearest to the number that digits stand for times
`10 ^ e`. What is out of range by far is not computed. -/
def nearestFloat (ds : List Nat) (e : Int) : Float :=
  let significant := ds.dropWhile (· == 0)
  if significant.isEmpty then 0.0
  else if 400 < e + significant.length then 1.0 / 0.0
  else if e + significant.length < -400 then 0.0
  else Float.ofScientific (ofDigits 10 significant) (e < 0) e.natAbs

/-- A sign put before a number. -/
def signed (negative : Bool) (x : Float) : Float := if negative then -x else x

/-- A number that is not the positive infinity. -/
def float? (negative : Bool) (x : Float) : Option Toml :=
  if x.isInf && !negative then none else some (.float (signed negative x))

/-- The exponent, if there is one, and what follows it. -/
def readExponent (cs : List Char) : Option (Option Int × List Char) :=
  match cs with
  | c :: rest =>
    if c = 'e' ∨ c = 'E' then do
      let (below, rest) := readSign rest
      let (ds, rest) ← readDigits 10 rest
      let e : Int := ofDigits 10 ds
      return (some (if below then -e else e), rest)
    else some (none, cs)
  | [] => some (none, [])

/-- The digits after the point, if there is one, and what follows them. -/
def readFraction : List Char → Option (Option (List Nat) × List Char)
  | '.' :: rest => (readDigits 10 rest).map fun r => (some r.1, r.2)
  | cs => some (none, cs)

/-- A number with a point, an exponent, or both, and what follows it;
nothing, if it is an integer. -/
def readFloat? (cs : List Char) : Option (Option (Toml × List Char)) := do
  let (negative, cs) := readSign cs
  let (whole, rest) ← readWhole cs
  let (fraction, rest) ← readFraction rest
  let (exponent, rest) ← readExponent rest
  if fraction.isNone && exponent.isNone then return none
  else
    let after := fraction.getD []
    let ds := whole ++ after
    let x := nearestFloat ds (exponent.getD 0 - after.length)
    return some (← float? negative x, rest)

/-- An infinity or what is no number, and what follows it. -/
def readSpecial (cs : List Char) : Option (Toml × List Char) :=
  let (negative, cs) := readSign cs
  match cs with
  | 'i' :: 'n' :: 'f' :: rest => some (.float (signed negative (1.0 / 0.0)), rest)
  | 'n' :: 'a' :: 'n' :: rest => some (.float (0.0 / 0.0), rest)
  | _ => none

/-! ## Dates and times -/

/-- A number of exactly so many digits within limits, and what follows
it. -/
def readFixed (width least greatest : Nat) (cs : List Char) : Option (Nat × List Char) := do
  let ds ← (cs.take width).mapM (digitIn? 10)
  let n := ofDigits 10 ds
  if ds.length < width || n < least || greatest < n then none else some (n, cs.drop width)

/-- What follows a character, if a text begins with it. -/
def expect (c : Char) : List Char → Option (List Char)
  | d :: rest => if c = d then some rest else none
  | [] => none

/-- Whether a year has a leap day. -/
def isLeap (year : Nat) : Bool := year % 4 = 0 && (year % 100 ≠ 0 || year % 400 = 0)

/-- The days of a month. -/
def daysIn (year month : Nat) : Nat :=
  if month = 2 then (if isLeap year then 29 else 28)
  else if month = 4 ∨ month = 6 ∨ month = 9 ∨ month = 11 then 30
  else 31

/-- What follows a date. -/
def skipDate (cs : List Char) : Option (List Char) := do
  let (year, cs) ← readFixed 4 0 9999 cs
  let (month, cs) ← readFixed 2 1 12 (← expect '-' cs)
  let (_, cs) ← readFixed 2 1 (daysIn year month) (← expect '-' cs)
  return cs

/-- What follows the fraction of a second, if there is one. -/
def skipSecondFraction (cs : List Char) : List Char :=
  match cs with
  | '.' :: rest =>
    if (rest.takeWhile Char.isDigit).isEmpty then cs else rest.dropWhile Char.isDigit
  | _ => cs

/-- What follows a time. -/
def skipTime (cs : List Char) : Option (List Char) := do
  let (_, cs) ← readFixed 2 0 23 cs
  let (_, cs) ← readFixed 2 0 59 (← expect ':' cs)
  let (_, cs) ← readFixed 2 0 60 (← expect ':' cs)
  return skipSecondFraction cs

/-- What follows the offset of a time from the universal one. -/
def skipOffset (cs : List Char) : Option (List Char) :=
  match cs with
  | 'Z' :: rest => some rest
  | 'z' :: rest => some rest
  | c :: rest =>
    if c = '+' ∨ c = '-' then do
      let (_, rest) ← readFixed 2 0 23 rest
      let (_, rest) ← readFixed 2 0 59 (← expect ':' rest)
      return rest
    else none
  | [] => none

/-- What follows a time and its offset behind a date, if they are there. -/
def skipTimeOfDay (cs : List Char) : List Char :=
  match cs with
  | c :: rest =>
    if c = 'T' ∨ c = 't' ∨ c = ' ' then
      match skipTime rest with
      | some rest => (skipOffset rest).getD rest
      | none => cs
    else cs
  | [] => []

/-- A date, a time or both, and what follows. -/
def readMoment (cs : List Char) : Option (Toml × List Char) := do
  let rest ← ((skipDate cs).map skipTimeOfDay).or (skipTime cs)
  return (.moment (String.ofList (cs.take (cs.length - rest.length))), rest)

/-- A number, a date or a time, and what follows it. -/
def readScalarValue (cs : List Char) : Option (Toml × List Char) :=
  match readMoment cs with
  | some r => some r
  | none =>
    match readSpecial cs with
    | some r => some r
    | none =>
      match readFloat? cs with
      | some (some r) => some r
      | some none => readInteger cs
      | none => none

end Toml

end CapabilityBroker
