import CapabilityBroker.Error
import CapabilityBroker.Memory.Usage
import CapabilityBroker.Telemetry.Signal
import CapabilityBroker.Time.Duration
/-!
# Memory pressure

A monitor classifies readings of the memory by two thresholds. When the
level changes it tells so; it calls its handlers when the new level is not
the normal one, and asks for memory to be reclaimed when the level becomes
critical, but not more often than after a given time.
-/

namespace CapabilityBroker

/-- How scarce memory is. -/
inductive PressureLevel where
  | normal
  | elevated
  | critical
  deriving DecidableEq, Repr

namespace PressureLevel

/-- The spelling of a level. -/
def name : PressureLevel → String
  | normal => "normal"
  | elevated => "elevated"
  | critical => "critical"

/-- The rank of a level, the normal one being the lowest. -/
def rank : PressureLevel → Nat
  | normal => 0
  | elevated => 1
  | critical => 2

end PressureLevel

/-- How memory is watched: how often, by which thresholds, and after which
time memory may be reclaimed again. -/
structure PressureLimits where
  sampleInterval : Nat := Duration.ofSecs 5
  elevatedThreshold : Float := 0.70
  criticalThreshold : Float := 0.90
  minReclaimInterval : Nat := Duration.ofSecs 60
  deriving BEq

/-- The level of a share of the memory in use. -/
def PressureLimits.classify (limits : PressureLimits) (utilization : Float) : PressureLevel :=
  if limits.criticalThreshold ≤ utilization then .critical
  else if limits.elevatedThreshold ≤ utilization then .elevated
  else .normal

/-- A monitor: its limits, whether memory can be reclaimed at all, the
level of the last reading, and when memory was last reclaimed. -/
structure PressureMonitor where
  limits : PressureLimits
  canReclaim : Bool
  level : PressureLevel
  lastReclaim : Option Nat

namespace PressureMonitor

/-- A monitor before its first reading. -/
def new (limits : PressureLimits) (canReclaim : Bool) : PressureMonitor :=
  ⟨limits, canReclaim, .normal, none⟩

/-- What a check finds. -/
inductive Finding where
  /-- There was no reading. -/
  | failed (e : Error)
  /-- The level is as it was. -/
  | unchanged
  /-- The level changed, and memory is to be reclaimed or not. -/
  | changed (before after : PressureLevel) (utilization : Float) (reclaims : Bool)

/-- Whether memory may be reclaimed: never if it cannot be, always if it
has not been yet, and otherwise after the time between two. -/
def reclaimDue (m : PressureMonitor) (now : Nat) : Bool :=
  m.canReclaim && match m.lastReclaim with
    | none => true
    | some last => m.limits.minReclaimInterval ≤ now - last

/-- Checks the memory by a reading. A failed reading leaves everything as
it is. -/
def check (m : PressureMonitor) (now : Nat) : Except Error MemoryUsage → PressureMonitor × Finding
  | .error e => (m, .failed e)
  | .ok usage =>
    let utilization := usage.utilization
    let level := m.limits.classify utilization
    if level = m.level then (m, .unchanged)
    else
      let reclaims := level = .critical && m.reclaimDue now
      ({ m with level, lastReclaim := if reclaims then some now else m.lastReclaim },
        .changed m.level level utilization reclaims)

/-- What a sequence of checks finds, each by a reading and at an instant. -/
def findings (m : PressureMonitor) : List (Nat × Except Error MemoryUsage) → List Finding
  | [] => []
  | r :: later => (m.check r.1 r.2).2 :: (m.check r.1 r.2).1.findings later

/-- The level that the handlers are called with, if they are called: on
every change to a level above the normal one. -/
def Finding.handled? : Finding → Option PressureLevel
  | .changed _ after _ _ => if after = .normal then none else some after
  | _ => none

/-- The calls that a check makes: of each handler once, in their order, and
with the level. -/
def Finding.calls {η : Type} (handlers : List η) (f : Finding) : List (η × PressureLevel) :=
  match f.handled? with
  | none => []
  | some level => handlers.map fun h => (h, level)

/-- Whether memory is to be reclaimed. -/
def Finding.reclaims : Finding → Bool
  | .changed _ _ _ reclaims => reclaims
  | _ => false

/-- What is reported of a check before the handlers are called. -/
def Finding.signals : Finding → List Signal
  | .failed e => [.log ⟨.warn, "memory sample failed", [("error", .text e.message)]⟩]
  | .unchanged => []
  | .changed before after utilization _ =>
    let fields : List (String × LogValue) :=
      [("from", .text before.name), ("to", .text after.name), ("utilization", .float utilization)]
    [.count (.memoryPressure after.name),
     .log (if before.rank < after.rank then ⟨.warn, "memory pressure rising", fields⟩
       else ⟨.info, "memory pressure easing", fields⟩)]

/-- What is reported when memory is reclaimed. -/
def reclaimSignals : List Signal := [.log ⟨.debug, "invoking reclaim hook", []⟩]

end PressureMonitor

end CapabilityBroker
