import CapabilityBroker.Service.Basic
import CapabilityBroker.Service.Events
/-!
# Upkeep

What a service does beside its calls: it sweeps its cache, watches the
memory and gives up the cache when memory gets scarce, and shuts down.
Sweeps and checks are made by hand or by the tickers of the service.
-/

namespace CapabilityBroker

namespace Service

variable {α : Type} [Scalar α]

/-! ## The cache -/

/-- The cache is emptied. -/
def clearCache (s : Service α) : Service α := { s with cache := s.cache.clear }

/-- What is reported of a sweep that gave up entries because their time
was over, and others to bring the use down. -/
def sweepSignals (expired reduced : Nat) : List Signal :=
  List.replicate expired (Cache.evictionSignal .expired)
    ++ List.replicate reduced (Cache.evictionSignal .reduction)
    ++ if 0 < expired + reduced then
        [.log ⟨.debug, "capability cache sweep",
          [("expired", .nat expired), ("reduced", .nat reduced)]⟩]
      else []

/-- The cache gives up the entries whose time is over, and then brings the
use down. -/
def sweep (s : Service α) (now : Nat) : Service α :=
  let (cache, expired) := s.cache.purge now
  let (cache, reduced) := cache.reduce
  { s with cache }.report now (sweepSignals expired.length reduced.length)

/-! ## The memory -/

/-- What is reported when the cache is given up. -/
def pressureSignals (level : PressureLevel) (cleared : Nat) : List Signal :=
  [.log ⟨.warn, "memory pressure, capability cache cleared",
    [("level", .text level.name), ("cleared", .nat cleared)]⟩]

/-- The service is told that the memory pressure changed. -/
def onPressure (host : Host) (s : Service α) (now : Nat) (level : PressureLevel) : Service α :=
  let cleared := s.cache.size
  (s.clearCache.report now (pressureSignals level cleared)).capture host now
    (.pressureChanged level.name cleared)

/-- Memory is asked to be reclaimed. -/
def reclaim (s : Service α) (now : Nat) : Service α :=
  (s.report now PressureMonitor.reclaimSignals).note now .reclaimed

/-- What follows from what a check found. -/
def follow (host : Host) (s : Service α) (now : Nat) (f : PressureMonitor.Finding) : Service α :=
  let s := s.report now f.signals
  let s := match f.handled? with
    | none => s
    | some level => s.onPressure host now level
  if f.reclaims then s.reclaim now else s

/-- The memory is checked by a reading. -/
def checkMemory (host : Host) (s : Service α) (now : Nat) (reading : Except Error MemoryUsage) :
    Service α :=
  let (monitor, finding) := s.monitor.check now reading
  { s with monitor }.follow host now finding

/-! ## The tickers -/

/-- A sweep by its ticker, if it rings. -/
def sweepTick? (s : Service α) (now : Nat) : Option (Service α) := do
  let ticker ← (← s.sweeper).ring? now
  return { s with sweeper := some ticker }.sweep now

/-- A check by its ticker, if it rings. -/
def watchTick? (host : Host) (s : Service α) (now : Nat) (reading : Except Error MemoryUsage) :
    Option (Service α) := do
  let ticker ← (← s.watcher).ring? now
  return { s with watcher := some ticker }.checkMemory host now reading

/-- A step taken over and over, for as long as it can be. -/
def catchUp (step? : Service α → Option (Service α)) : Nat → Service α → Service α
  | 0, s => s
  | bound + 1, s =>
    match step? s with
    | none => s
    | some s => catchUp step? bound s

/-- Whether the monitor has its turn before the sweep. -/
def watchesFirst (s : Service α) : Bool :=
  match s.watcher, s.sweeper with
  | some watcher, some sweeper => watcher.precedes sweeper
  | watcher, _ => watcher.isSome

/-- The next ticker that is due has its turn, and rings until it has caught
up. -/
def tick? (host : Host) (s : Service α) (now : Nat) (reading : Except Error MemoryUsage) :
    Option (Service α) :=
  let sweeps (s : Service α) := s.sweepTick? now
  let watches (s : Service α) := s.watchTick? host now reading
  let (first?, second?) := if s.watchesFirst then (watches, sweeps) else (sweeps, watches)
  match first? s, second? s with
  | some s, _ => some (catchUp first? Ticker.ringLimit s)
  | none, some s => some (catchUp second? Ticker.ringLimit s)
  | none, none => none

/-! ## The end -/

/-- What is reported of the shutdown. -/
def disposeSignals : List Signal := [.log ⟨.info, "capability service disposed", []⟩]

/-- The service is shut down: its tickers stop, its cache is emptied, and
calls that begin later fail. Those on their way go on. -/
def dispose (s : Service α) (now : Nat) : Service α :=
  if s.isDisposed then s
  else { s.clearCache with isDisposed := true, sweeper := none, watcher := none }.report now
    disposeSignals

end Service

end CapabilityBroker
