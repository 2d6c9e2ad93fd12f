import CapabilityBroker.Time.Duration
/-!
# Tickers

A ticker rings once in every period. One that is looked at late rings late,
and the next ring is then a whole period after that one, so a backlog never
builds up; a small lateness is tolerated, and the rings stay where they
were meant to be. Of several tickers that are due the one whose timer came
first rings first.
-/

namespace CapabilityBroker

/-- A ticker: its period, when it is to ring next, and when its timer was
set for that. -/
structure Ticker where
  period : Nat
  next : Nat
  since : Nat
  deriving DecidableEq, Repr

namespace Ticker

/-- The lateness that does not move the next ring. -/
def tolerance : Nat := Duration.ofMillis 5

/-- A ticker that rings for the first time after a while. There is none
without a period, and no period is longer than the longest pause. -/
def starting? (now first period : Nat) : Option Ticker :=
  if period = 0 then none else some ⟨min period Duration.longestPause, now + first, now⟩

/-- The instant of the timer that makes it ring. -/
def timer (t : Ticker) : Nat := Instant.tick t.next

/-- A ticker after it rang at an instant, if it rings then. -/
def ring? (t : Ticker) (now : Nat) : Option Ticker :=
  if now < t.timer then none
  else if t.next + tolerance < now then some { t with next := now + t.period, since := now }
  else some { t with next := t.next + t.period, since := now }

/-- The most rings at one instant: after so many nanoseconds of catching
up, the next ring lies ahead. -/
def ringLimit : Nat := tolerance + 2

/-- Whether a ticker has its turn before another one: its timer comes
earlier, or it comes at the same instant and was set earlier. -/
def precedes (t u : Ticker) : Bool :=
  t.timer < u.timer || (t.timer == u.timer && t.since < u.since)

end Ticker

end CapabilityBroker
