import CapabilityBroker.Memory.Pressure
import CapabilityBroker.Time.Ticker
import CapabilityBroker.Time.Timeline
/-!
# Watching the memory

A pressure monitor together with what it reads and the tickers that make
it check by itself. A check can also be made by hand. What the checks
found is kept in order: from it follow the calls of handlers, the requests
to reclaim memory, and what is reported.
-/

namespace CapabilityBroker

/-- A monitor, the present reading, the tickers while the monitor runs by
itself, and what the checks found. -/
structure MemoryWatch where
  monitor : PressureMonitor
  reading : Except Error MemoryUsage
  /-- The ticker that was started last, and may be stopped. -/
  ticker : Option Ticker
  /-- Earlier ones, which go on ringing. -/
  others : List Ticker
  findings : List PressureMonitor.Finding

namespace MemoryWatch

/-- A watch that has not checked anything. -/
def new (limits : PressureLimits) (canReclaim : Bool) (utilization : Float) : MemoryWatch where
  monitor := .new limits canReclaim
  reading := .ok (.ofUtilization utilization)
  ticker := none
  others := []
  findings := []

/-- Checks the memory. -/
def check (w : MemoryWatch) (now : Nat) : MemoryWatch :=
  let (monitor, finding) := w.monitor.check now w.reading
  { w with monitor, findings := w.findings ++ [finding] }

/-- Tickers of which the first one that is due rings, if there is one. -/
def ringFirst? (now : Nat) : List Ticker → Option (List Ticker)
  | [] => none
  | t :: rest =>
    match t.ring? now with
    | some t => some (t :: rest)
    | none => (ringFirst? now rest).map (t :: ·)

/-- A check by a ticker, if one rings. -/
def tick? (now : Nat) (w : MemoryWatch) : Option MemoryWatch :=
  match ringFirst? now w.others, w.ticker.bind (·.ring? now) with
  | some others, _ => some ({ w with others }.check now)
  | none, some ticker => some ({ w with ticker := some ticker }.check now)
  | none, none => none

/-- The timeline of a watch up to an instant. -/
def timeline (last : Nat) : Timeline MemoryWatch where
  tasks _ := 1
  proceed now _ w := w.tick? now
  timers w := last :: (w.ticker.toList ++ w.others).map (·.timer)
  finished now _ := last ≤ now

/-- The watch checks at once, and from then on by itself. A ticker that it
has already goes on beside the new one. -/
def start (w : MemoryWatch) (now : Nat) : MemoryWatch :=
  ((timeline now).turn now 0 ((w.others.length + 2) * Ticker.ringLimit)
    { w with
      ticker := Ticker.starting? now 0 w.monitor.limits.sampleInterval
      others := w.others ++ w.ticker.toList }).1

/-- The ticker that was started last stops. -/
def stop (w : MemoryWatch) : MemoryWatch := { w with ticker := none }

/-- Lets time pass. Every instant at which something happens is a whole
millisecond, which bounds their number. -/
def sleep (w : MemoryWatch) (now duration : Nat) : Nat × MemoryWatch :=
  (timeline (Instant.after now duration)).run ((w.others.length + 1) * Ticker.ringLimit)
    (Duration.millis duration + 2) now w

end MemoryWatch

/-- What is reported of a check whose handlers report nothing. -/
def PressureMonitor.Finding.report (f : Finding) : List Signal :=
  f.signals ++ if f.reclaims then reclaimSignals else []

end CapabilityBroker
