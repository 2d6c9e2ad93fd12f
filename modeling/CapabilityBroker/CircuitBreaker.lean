import CapabilityBroker.Telemetry.Signal
import CapabilityBroker.Time.Duration
/-!
# The circuit breaker

A gate before an operation that may fail. While the circuit is closed
every call passes and failures are counted; at the threshold the circuit
opens and no call passes. After a pause it is half open: one call passes
as a trial, and its outcome closes the circuit or opens it again. A trial
that is given up leaves its place to the next call.
-/

namespace CapabilityBroker

/-- How many failures open a circuit, and for how long. -/
structure BreakerLimits where
  failureThreshold : Nat := 5
  resetTimeout : Nat := Duration.ofSecs 30
  deriving DecidableEq, Repr

/-- The states of a circuit. -/
inductive Circuit where
  | closed
  | open
  | halfOpen
  deriving DecidableEq, Repr

/-- The spelling of a state. -/
def Circuit.name : Circuit → String
  | closed => "closed"
  | .open => "open"
  | halfOpen => "half_open"

/-- A breaker: the state of its circuit, the failures counted, the
instant of the last change of state, and whether a trial is on its way. -/
structure CircuitBreaker where
  limits : BreakerLimits
  circuit : Circuit
  failures : Nat
  changedAt : Nat
  trialTaken : Bool
  deriving DecidableEq, Repr

namespace CircuitBreaker

/-- The greatest number of failures that is counted. -/
def failureCountLimit : Nat := UInt32.size - 1

/-- A breaker with a closed circuit. -/
def new (limits : BreakerLimits) (now : Nat) : CircuitBreaker where
  limits
  circuit := .closed
  failures := 0
  changedAt := now
  trialTaken := false

/-- The breaker after a change of state. Closing the circuit forgets the
failures; a change to the same state changes nothing. -/
def turn (b : CircuitBreaker) (now : Nat) (next : Circuit) : CircuitBreaker :=
  if b.circuit = next then b
  else { b with
    circuit := next
    changedAt := now
    trialTaken := false
    failures := if next = .closed then 0 else b.failures }

/-- How a call is received. -/
inductive Reception where
  | refused
  | passed
  /-- It passes as the trial of a half-open circuit. -/
  | trial
  deriving DecidableEq, Repr

/-- Receives a call. The first one after the pause of an open circuit
makes it half open and is the trial. -/
def receive (b : CircuitBreaker) (now : Nat) : CircuitBreaker × Reception :=
  match b.circuit with
  | .closed => (b, .passed)
  | .open =>
    if now - b.changedAt < b.limits.resetTimeout then (b, .refused)
    else ({ b.turn now .halfOpen with trialTaken := true }, .trial)
  | .halfOpen =>
    if b.trialTaken then (b, .refused) else ({ b with trialTaken := true }, .trial)

/-- A trial is given up without an outcome. -/
def releaseTrial (b : CircuitBreaker) : CircuitBreaker :=
  if b.circuit = .halfOpen then { b with trialTaken := false } else b

/-- A call succeeded. -/
def recordSuccess (b : CircuitBreaker) (now : Nat) : CircuitBreaker :=
  match b.circuit with
  | .halfOpen => b.turn now .closed
  | .closed => { b with failures := 0 }
  | .open => b

/-- One failure more. -/
def countFailure (b : CircuitBreaker) : CircuitBreaker :=
  { b with failures := min (b.failures + 1) failureCountLimit }

/-- A call failed. -/
def recordFailure (b : CircuitBreaker) (now : Nat) : CircuitBreaker :=
  match b.circuit with
  | .closed =>
    let b := b.countFailure
    if b.limits.failureThreshold ≤ b.failures then b.turn now .open else b
  | .halfOpen => b.countFailure.turn now .open
  | .open => b

/-- The circuit is closed by hand. -/
def reset (b : CircuitBreaker) (now : Nat) : CircuitBreaker :=
  { b.turn now .closed with failures := 0 }

/-- What is reported of a step: the change of state, if there is one. An
opening tells the failures that led to it. -/
def signals (before after : CircuitBreaker) : List Signal :=
  if before.circuit = after.circuit then []
  else
    let line : LogLine :=
      if after.circuit = .open then
        ⟨.warn, "circuit opened",
          [("from", .text before.circuit.name), ("failures", .nat after.failures)]⟩
      else
        ⟨.info, "circuit state changed",
          [("from", .text before.circuit.name), ("to", .text after.circuit.name)]⟩
    [.count (.circuitTransitions after.circuit.name), .log line]

end CircuitBreaker

end CapabilityBroker
