import CapabilityBroker.Memory.Watch
/-!
# Histories of a monitor

What happens around a monitor, as events: the clock advances, and the
memory is checked, with a reading or with an error instead of one. A check
takes no time, and neither do the handlers it calls. What the checks found
is kept with its instant, and from it follows when memory was reclaimed and
which counters went up.
-/

namespace CapabilityBroker

namespace PressureMonitor

/-- What happens around a monitor. -/
inductive Event where
  /-- The clock advances. -/
  | advance (span : Nat)
  /-- The memory is checked. -/
  | check (reading : Except Error MemoryUsage)

/-- The reading that an event brings, if it brings one. -/
def Event.usage? : Event → Option MemoryUsage
  | .check (.ok usage) => some usage
  | _ => none

/-- A monitor on its course: the clock that it reads, and what its checks
found, each at its instant and the latest at the end. -/
structure Course where
  now : Nat
  monitor : PressureMonitor
  record : List (Nat × Finding)

/-- Whether a check finds that the level has become critical. -/
def Finding.entersCritical : Finding → Bool
  | .changed _ .critical _ _ => true
  | _ => false

namespace Course

/-- The course before anything happens. -/
def start (now : Nat) (limits : PressureLimits) (canReclaim : Bool) : Course :=
  ⟨now, .new limits canReclaim, []⟩

/-- The course after an event. -/
def step (c : Course) : Event → Course
  | .advance span => { c with now := c.now + span }
  | .check reading =>
    let (monitor, finding) := c.monitor.check c.now reading
    { c with monitor, record := c.record ++ [(c.now, finding)] }

/-- The course after a history of events. -/
def run (c : Course) (history : List Event) : Course := history.foldl step c

/-- The instants of the checks that found something of a kind. -/
def instants (c : Course) (p : Finding → Bool) : List Nat :=
  (c.record.filter fun r => p r.2).map (·.1)

/-- The instants at which memory was reclaimed. -/
def reclaims (c : Course) : List Nat := c.instants (·.reclaims)

/-- The instants at which the level became critical. -/
def entries (c : Course) : List Nat := c.instants (·.entersCritical)

/-- The counters that went up, in order. -/
def counters (c : Course) : List Counter := c.record.flatMap fun r => Signal.counters r.2.report

/-- The calls of the handlers, in order. -/
def calls {η : Type} (c : Course) (handlers : List η) : List (η × PressureLevel) :=
  c.record.flatMap fun r => r.2.calls handlers

end Course

end PressureMonitor

/-- The level by the readings of a history: that of the last one, and the
normal level before there is any. -/
def PressureLimits.levelBy (limits : PressureLimits) (history : List PressureMonitor.Event) :
    PressureLevel :=
  match (history.filterMap (·.usage?)).getLast? with
  | none => .normal
  | some usage => limits.classify usage.utilization

end CapabilityBroker
