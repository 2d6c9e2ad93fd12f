import CapabilityBroker.Cache.Basic
import CapabilityBroker.CircuitBreaker
import CapabilityBroker.Memory.Pressure
import CapabilityBroker.Memory.Usage
import CapabilityBroker.Request.Validation
import CapabilityBroker.Retry.Basic
import CapabilityBroker.TokenBucket
/-!
# Service settings

Everything about a service that can be set. Most values are free, but some
make no sense or make none together; `ServiceSettings.check` finds the
first such fault, in a fixed order.
-/

namespace CapabilityBroker

/-- The settings of a service. -/
structure ServiceSettings where
  retry : RetryPolicy := {}
  cache : CacheLimits := {}
  rateLimit : RateLimit := {}
  breaker : BreakerLimits := {}
  validation : RequestLimits := {}
  memory : PressureLimits := {}
  /-- The longest wait for the lock; without one a call waits as long as
  it takes. -/
  lockTimeout : Option Nat := some (Duration.ofSecs 10)
  /-- The time between two sweeps of the cache. -/
  sweepInterval : Nat := Duration.ofSecs 300
  /-- The share of the requests whose durations are recorded. -/
  sampleRate : Float := 0.1
  deriving BEq

namespace ServiceSettings

/-- Settings with a sample rate, moved into the unit interval. -/
def withSampleRate (s : ServiceSettings) (rate : Float) : ServiceSettings :=
  { s with sampleRate := MemoryUsage.clamp rate }

/-- What may be wrong with settings. -/
inductive Fault where
  | capacity
  | window
  | failureThreshold
  | backoffFactor
  | cachePercentages
  | pressureThresholds
  | sampleInterval
  | sweepInterval
  | sampleRate
  deriving DecidableEq, Repr

namespace Fault

/-- The faults, in the order in which they are looked for. -/
def all : List Fault :=
  [capacity, window, failureThreshold, backoffFactor, cachePercentages, pressureThresholds,
   sampleInterval, sweepInterval, sampleRate]

/-- The message of a fault. -/
def message : Fault → String
  | capacity => "rate limit capacity must be > 0"
  | window => "rate limit window must be > 0"
  | failureThreshold => "breaker failure threshold must be > 0"
  | backoffFactor => "retry backoff factor must be >= 1"
  | cachePercentages =>
    "cache reduction ratio must not exceed threshold, threshold must be <= 100"
  | pressureThresholds => "memory thresholds must satisfy 0 < elevated <= critical <= 1"
  | sampleInterval => "memory sample interval must be > 0"
  | sweepInterval => "sweep interval must be > 0"
  | sampleRate => "performance sample rate must be within 0..=1"

end Fault

/-- Whether settings are free of a fault. -/
def avoids (s : ServiceSettings) : Fault → Bool
  | .capacity => 0 < s.rateLimit.capacity
  | .window => 0 < s.rateLimit.window
  | .failureThreshold => 0 < s.breaker.failureThreshold
  | .backoffFactor => s.retry.backoffFactor.isFinite && 1.0 ≤ s.retry.backoffFactor
  | .cachePercentages =>
    s.cache.reductionRatio ≤ s.cache.reductionThreshold && s.cache.reductionThreshold ≤ 100
  | .pressureThresholds =>
    0.0 < s.memory.elevatedThreshold && s.memory.elevatedThreshold ≤ s.memory.criticalThreshold
      && s.memory.criticalThreshold ≤ 1.0
  | .sampleInterval => 0 < s.memory.sampleInterval
  | .sweepInterval => 0 < s.sweepInterval
  | .sampleRate => 0.0 ≤ s.sampleRate && s.sampleRate ≤ 1.0

/-- The first fault of settings. -/
def fault? (s : ServiceSettings) : Option Fault := Fault.all.find? fun f => !s.avoids f

/-- Whether settings are usable. -/
def check (s : ServiceSettings) : Except Error Unit :=
  match s.fault? with
  | none => .ok ()
  | some f => .error (.configuration f.message)

/-- The settings that nobody changed are usable. -/
example : ({} : ServiceSettings).fault? = none := by decide +kernel

end ServiceSettings

end CapabilityBroker
