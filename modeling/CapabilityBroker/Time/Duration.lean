/-!
# Spans and points of time

Time is counted in nanoseconds: a span of time is a natural number of
them, and a point of time is the span since the clock started. Timers are
coarser than the clock: they ring at whole milliseconds, so a deadline is
moved up to the next one.
-/

namespace CapabilityBroker

namespace Duration

/-- Nanoseconds in a second. -/
abbrev second : Nat := 1000000000

/-- Nanoseconds in a millisecond. -/
abbrev millisecond : Nat := 1000000

/-- A span of whole milliseconds. -/
def ofMillis (n : Nat) : Nat := n * millisecond

/-- A span of whole seconds. -/
def ofSecs (n : Nat) : Nat := n * second

/-- The longest pause: thirty years of 365 days. A pause that is to be
longer ends after this one. -/
def longestPause : Nat := ofSecs (30 * 365 * 24 * 3600)

/-- The whole milliseconds of a span. -/
def millis (d : Nat) : Nat := d / millisecond

/-- The digits after the point: `n` with leading zeros up to `width`
places, without the zeros it ends with. -/
def fractionText (width n : Nat) : List Char :=
  let digits := Nat.toDigits 10 n
  let padded := List.replicate (width - digits.length) '0' ++ digits
  let kept := (padded.reverse.dropWhile (· == '0')).reverse
  if kept.isEmpty then [] else '.' :: kept

/-- A span in the largest of the units s, ms, µs and ns that it fills at
least once, as an exact decimal. -/
def text (d : Nat) : String :=
  let (unit, width, name) :=
    if second ≤ d then (second, 9, "s")
    else if millisecond ≤ d then (millisecond, 6, "ms")
    else if 1000 ≤ d then (1000, 3, "µs")
    else (1, 0, "ns")
  String.ofList (Nat.toDigits 10 (d / unit) ++ fractionText width (d % unit)) ++ name

/-- A span that may be missing, as messages show it. -/
def optionText : Option Nat → String
  | none => "None"
  | some d => "Some(" ++ text d ++ ")"

example : text 0 = "0ns" ∧ text 1500 = "1.5µs" ∧ text 90061000000001 = "90061.000000001s" := by
  decide +kernel

end Duration

namespace Instant

/-- The moment a timer set for `t` rings: the first whole millisecond not
before it. -/
def tick (t : Nat) : Nat :=
  (t + (Duration.millisecond - 1)) / Duration.millisecond * Duration.millisecond

/-- The moment the timer rings for a limit in time that begins now. A
limit may be as long as it likes. -/
def deadline (now limit : Nat) : Nat := tick (now + limit)

/-- The end of a pause of a given length: no pause ends at once, and any
other when its timer rings. -/
def after (now pause : Nat) : Nat :=
  if pause = 0 then now else deadline now (min pause Duration.longestPause)

/-- Whether an instant that may never come has come. -/
def hasCome (now : Nat) : Option Nat → Bool
  | none => false
  | some t => t ≤ now

/-- No timer rings early. -/
theorem le_tick (t : Nat) : t ≤ tick t := by
  unfold tick Duration.millisecond; omega

/-- And none rings a whole millisecond late. -/
theorem tick_lt (t : Nat) : tick t < t + Duration.millisecond := by
  unfold tick Duration.millisecond; omega

/-- A whole millisecond is kept. -/
theorem tick_ofMillis (n : Nat) : tick (Duration.ofMillis n) = Duration.ofMillis n := by
  unfold tick Duration.ofMillis Duration.millisecond; omega

end Instant

end CapabilityBroker
